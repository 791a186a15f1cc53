import StackMachine.Machine.State

/-!
# Access — the parts of a machine as actions

Operations on the stacks, the memory and the modules of a machine, as actions that instructions
and interrupt services are composed of.
-/

namespace StackMachine
namespace Machine

/-- Fails as the result does, and changes nothing. -/
def attempt : Except Fault α → Action α
  | .ok a => pure a
  | .error e => throw e

/-! ## Evaluation stack -/

/-- Fails unless the evaluation stack holds `n` words. -/
def require (n : Nat) : Action Unit := do attempt ((← get).stack.require n)

/-- Fails unless `n` more words fit on the evaluation stack. -/
def reserve (n : Nat) : Action Unit := do attempt ((← get).stack.reserve n)

def peek (depth : Nat) : Action Word := do attempt ((← get).stack.peek depth)

def push (w : Word) : Action Unit := do
  let stack ← attempt ((← get).stack.push w)
  modify fun m => { m with stack }

def replace (depth : Nat) (w : Word) : Action Unit := do
  let stack ← attempt ((← get).stack.set depth w)
  modify fun m => { m with stack }

def drop (n : Nat) : Action Unit := do
  let stack ← attempt ((← get).stack.drop n)
  modify fun m => { m with stack }

/-! ## Pool stack -/

/-- Fails unless one more allocation fits on the pool stack. -/
def reservePool : Action Unit := do attempt ((← get).pools.reserve 1)

def currentPool : Action Word := do attempt (← get).pools.top

def pushPool (a : Word) : Action Unit := do
  let pools ← attempt ((← get).pools.push a)
  modify fun m => { m with pools }

/-- Goes back to the allocation before the current one. -/
def popPool : Action Unit := do
  let (_, pools) ← attempt (← get).pools.pop
  modify fun m => { m with pools }

/-! ## Memory -/

/-- The address a distance further on in the same region. -/
def advance (a distance : Word) : Action Word :=
  match Address.advance? a distance with
  | some b => pure b
  | none => throw .illegalAccess

/-- The address at an offset of the current pool allocation. -/
def poolAddress (offset : Word) : Action Word := do advance (← currentPool) offset

def readMemory (a width : Word) : Action Word := do attempt ((← get).heap.read a width)

def writeMemory (a value width : Word) : Action Unit := do
  if (← get).heap.writable a width then
    modify fun m => { m with heap := m.heap.store a value width }
  else throw .illegalAccess

def allocate (size : Word) : Action Word :=
  modifyGet fun m =>
    let (a, heap) := m.heap.allocate size
    (a, { m with heap })

def release (a : Word) : Action Unit := do
  if a = 0 then return ()
  else if (← get).heap.starts a .guest then
    modify fun m => { m with heap := m.heap.erase a }
  else attempt ((← get).heap.unmatched ())

def slice (a : Word) (length : Nat) : Action Bytes := do attempt ((← get).heap.slice a length)

def cString (a : Word) : Action Bytes := do attempt ((← get).heap.cString a)

/-! ## Host -/

/-- Acts on the host. Changes made before a fault stay. -/
def onHost (f : EStateM Fault Host α) : Action α := fun m =>
  match f m.host with
  | .ok a host => .ok a { m with host }
  | .error e host => .error e { m with host }

/-! ## Modules -/

/-- The module that the program counter points into. -/
def activeModule : Action Module := do
  let m ← get
  attempt (m.module m.active)

/-- A branch target, which has to be an instruction of the active module. -/
def branchTarget (target : Word) : Action Word := do
  if (← activeModule).contains target then return target else throw .illegalAccess

/-- Fails unless a module is loaded and an address is one of its instructions. -/
def frameTarget (index address : Word) : Action Unit := do
  let module ← attempt ((← get).module index)
  if module.contains address then return () else throw .illegalAccess

def jump (target : Word) : Action Unit := modify fun m => { m with pc := target }

def enter (index address : Word) : Action Unit :=
  modify fun m => { m with active := index, pc := address }

end Machine
end StackMachine
