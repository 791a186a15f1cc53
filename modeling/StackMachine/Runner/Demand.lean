import StackMachine.Machine.Step

/-!
# Demand — what the next instruction needs from outside

A machine works on a host that is a value. Before an instruction that opens a file, links a library
or reads the input stream, the caller can put what is needed into the host; `Demand.next?` tells
what that is, for the standard interrupt services.
-/

namespace StackMachine

/-- What an instruction needs from outside. -/
inductive Demand where
  /-- The file at a path. -/
  | file (path : String)
  /-- The library at a path. -/
  | library (path : String)
  /-- So many bytes of the input stream. -/
  | input (length : Nat)
  /-- Room for what is written. -/
  | output
  deriving DecidableEq, Repr

namespace Demand

/-- The text at an address, if there is one. -/
def text? (m : Machine) (a : Word) : Option Bytes := (m.heap.cString a).toOption

/-- What an interrupt needs, given the stack from the top. -/
def ofInterrupt? (m : Machine) (code : Word) (stack : List Word) : Option Demand :=
  match code.toNat, stack with
  | 3, _ :: path :: _ => do
    let bytes ← text? m path
    let path ← Utf8.decode? bytes
    return .file path
  | 4, _ => some .output
  | 9, path :: _ => do
    let bytes ← text? m path
    return .library (Utf8.lossy bytes)
  | 12, buffer :: size :: count :: handle :: _ =>
    let length := count.toNat * size.toNat
    let standard := m.host.channel? handle = some .stdin
    if standard ∧ m.heap.covers buffer length then some (.input length) else none
  | _, _ => none

def next? (m : Machine) : Option Demand :=
  match Machine.fetch m with
  | .ok i _ =>
    if Opcode.ofByte? i.opcode = some .int then ofInterrupt? m i.operand m.stack.items else none
  | .error _ _ => none

end Demand

end StackMachine
