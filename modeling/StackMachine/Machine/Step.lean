import StackMachine.Machine.Arithmetic
import StackMachine.Machine.Interrupt

/-!
# Step — the execution of instructions

`Machine.step` fetches the instruction at the program counter, counts it and executes it. A fetch
that fails changes nothing. An instruction that faults leaves the program counter behind it.
-/

namespace StackMachine
namespace Machine

/-! ## Instructions -/

/-- Executes an operation with its operand. -/
def perform (table : Interrupt.Table) (op : Opcode) (operand : Word) : Action Unit :=
  match op with
  | .nop => pure ()
  | .push => push operand
  | .pop => drop 1
  | .load => do
    let width ← peek 0
    let address ← poolAddress operand
    replace 0 (← readMemory address width)
  | .store => do
    require 2
    let width ← peek 0
    let value ← peek 1
    let address ← poolAddress operand
    writeMemory address value width
    drop 2
  | .mallocPool => do
    reservePool
    let size := (← activeModule).pool.get operand
    pushPool (← allocate size.toUInt64)
  | .freePool => do
    release (← currentPool)
    popPool
  | .pushPtr => do push (← poolAddress operand)
  | .loadPtr => do replace 0 (← readMemory (← peek 0) operand)
  | .storePtr => do
    require 2
    writeMemory (← peek 1) (← peek 0) operand
    drop 2
  | .dup => do push (← peek operand.toNat)
  | .pushArray => do replace 0 (← allocate (← peek 0))
  | .loadArray => do
    require 2
    let address ← advance (← peek 1) (← peek 0)
    replace 1 (← readMemory address operand)
    drop 1
  | .storeArray => do
    require 3
    let address ← advance (← peek 2) (← peek 1)
    writeMemory address (← peek 0) operand
    drop 3
  | .binary op => do
    require 2
    replace 1 (op.eval (← peek 1) (← peek 0))
    drop 1
  | .division op => do
    require 2
    if op.refuses (← peek 0) then throw .divisionByZero
    replace 1 (op.eval (← peek 1) (← peek 0))
    drop 1
  | .unary op => do replace 0 (op.eval (← peek 0))
  | .int => do
    let service ← attempt (table.get operand)
    service
  | .jmp => do jump (← branchTarget operand)
  | .jmpZero => branch true
  | .jmpNotZero => branch false
  | .call => do
    reserve 2
    let target ← branchTarget operand
    let m ← get
    push m.active
    push m.pc
    jump target
  | .vcall => do
    require 2
    let index ← peek 1
    let target ← peek 0
    frameTarget index target
    let m ← get
    replace 1 m.active
    replace 0 m.pc
    enter index target
  | .ret => do
    require 2
    let index ← peek 1
    let target ← peek 0
    frameTarget index target
    drop 2
    enter index target
  | .loadMemory => do
    let memory := (← activeModule).memory
    if memory.length ≤ operand.toNat then throw .illegalAccess
    match memory.base? with
    | some base => push (base + operand)
    | none => throw .illegalAccess
where
  /-- Takes the condition off and jumps if its being zero is as wanted. -/
  branch (onZero : Bool) : Action Unit := do
    let condition ← peek 0
    let m ← get
    let next ← if Word.isZero condition == onZero then branchTarget operand else pure m.pc
    drop 1
    jump next

def exec (table : Interrupt.Table) (i : Instruction) : Action Unit :=
  match Opcode.ofByte? i.opcode with
  | some op => perform table op i.operand
  | none => throw (.illegalOpcode i.opcode)

/-! ## Steps -/

def fetch : Action Instruction := do
  let module ← activeModule
  match module.instructions[(← get).pc.toNat]? with
  | some i => return i
  | none => throw .illegalAccess

def step (table : Interrupt.Table) : Action Unit := do
  let i ← fetch
  modify fun m => { m with pc := m.pc + 1, steps := m.steps + 1 }
  exec table i

/-- Executes up to `n` instructions and stops at the first fault. -/
def run (table : Interrupt.Table) : (n : Nat) → Action Unit
  | 0 => pure ()
  | n + 1 => fun m =>
    match step table m with
    | .ok () m => run table n m
    | .error e m => .error e m

end Machine
end StackMachine
