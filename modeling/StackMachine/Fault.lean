import StackMachine.Linker.Error
import StackMachine.Text.Layout
import StackMachine.Word

/-!
# Fault — why a machine halts

A machine runs until an instruction faults; leaving on request is a fault too. Every fault has a
wording, a status number that is part of the contract with the calling process, and an exit code.
-/

namespace StackMachine

/-- Why a machine halts. -/
inductive Fault where
  /-- The opcode byte is unassigned. -/
  | illegalOpcode (opcode : UInt8)
  /-- A program counter, a branch target or a memory access is out of bounds. -/
  | illegalAccess
  /-- The evaluation stack holds too few words. -/
  | stackUnderflow
  /-- The evaluation stack is full. -/
  | stackOverflow
  /-- The pool stack is empty. -/
  | callStackUnderflow
  /-- The pool stack is full. -/
  | callStackOverflow
  /-- A divisor is zero. -/
  | divisionByZero
  /-- No service is installed for an interrupt. -/
  | illegalInterrupt (code : Word)
  /-- A module index is unknown, unloaded or not allowed. -/
  | illegalLibraryIndex (index : Word)
  /-- The module table is full. -/
  | libraryOverflow
  /-- A module exports no such symbol. -/
  | symbolNotFound (name : String)
  /-- The entry point lies outside the program. -/
  | illegalEntryPoint (entry : Word) (programSize : Nat)
  /-- The guest asked to leave. -/
  | exit (code : Int64)
  /-- The host refused to read or write. -/
  | hostIo (reason : String)
  /-- A module could not be linked. -/
  | link (cause : LinkError)
  deriving DecidableEq, Repr

namespace Fault

def message : Fault → String
  | .illegalOpcode opcode => "illegal opcode " ++ Text.hex 2 opcode.toNat
  | .illegalAccess => "illegal access"
  | .stackUnderflow => "stack underflow"
  | .stackOverflow => "stack overflow"
  | .callStackUnderflow => "call stack underflow"
  | .callStackOverflow => "call stack overflow"
  | .divisionByZero => "division by zero"
  | .illegalInterrupt code => s!"illegal interrupt {code}"
  | .illegalLibraryIndex index => s!"illegal library index {index}"
  | .libraryOverflow => "library overflow"
  | .symbolNotFound name => s!"symbol not found: {name}"
  | .illegalEntryPoint entry programSize =>
    s!"illegal entry point {entry} for program of {programSize} instructions"
  | .exit code => s!"exit with code {code}"
  | .hostIo reason => s!"host io error: {reason}"
  | .link cause => "link error: " ++ cause.message

/-- The status number, never zero. -/
def status : Fault → Nat
  | .illegalOpcode _ => 1
  | .illegalAccess => 2
  | .stackUnderflow => 3
  | .stackOverflow => 4
  | .callStackOverflow => 5
  | .callStackUnderflow => 6
  | .divisionByZero => 7
  | .illegalInterrupt _ => 8
  | .illegalLibraryIndex _ => 9
  | .libraryOverflow => 10
  | .symbolNotFound _ => 11
  | .illegalEntryPoint _ _ => 12
  | .exit _ => 13
  | .hostIo _ => 14
  | .link _ => 15

def statusName : Fault → String
  | .illegalOpcode _ => "ILLEGAL_OPCODE"
  | .illegalAccess => "ILLEGAL_ACCESS"
  | .stackUnderflow => "STACK_UNDERFLOW"
  | .stackOverflow => "STACK_OVERFLOW"
  | .callStackOverflow => "CALL_STACK_OVERFLOW"
  | .callStackUnderflow => "CALL_STACK_UNDERFLOW"
  | .divisionByZero => "DIVISION_BY_ZERO"
  | .illegalInterrupt _ => "ILLEGAL_INTERRUPT"
  | .illegalLibraryIndex _ => "ILLEGAL_LIBRARY_INDEX"
  | .libraryOverflow => "LIBRARY_OVERFLOW"
  | .symbolNotFound _ => "SYMBOL_NOT_FOUND"
  | .illegalEntryPoint _ _ => "ILLEGAL_ENTRY_POINT"
  | .exit _ => "EXIT"
  | .hostIo _ => "HOST_IO"
  | .link _ => "LINK_FAILURE"

/-- The exit code: the low half of the guest's own code, or the status number. -/
def exitCode : Fault → Int32
  | .exit code => code.toInt32
  | fault => Int32.ofNat fault.status

end Fault

end StackMachine
