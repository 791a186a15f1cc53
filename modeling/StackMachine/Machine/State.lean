import StackMachine.Heap
import StackMachine.Host
import StackMachine.Linker
import StackMachine.Log.Notice
import StackMachine.Stack

/-!
# Machine — the state of a running program

A machine executes the instructions of its active module against a stack of words. Pool allocations
live on a second stack. Module zero is the program that the machine was made for and stays loaded;
further modules are linked while the machine runs, and their slots are never used again.

* `Machine.start` — the machine of a loaded program;
* `Machine.Action` — a change of the machine that may end in a fault.
-/

namespace StackMachine

/-- What a machine is made with: how much it can hold, and what its guest memory is like. -/
structure Capacities where
  /-- Words on the evaluation stack. -/
  stack : UInt64 := 1024
  /-- Allocations on the pool stack. -/
  pools : UInt64 := 1024
  /-- Module slots, that of the program included. -/
  modules : UInt64 := 64
  profile : Profile := .checked
  /-- How many bytes of guest memory the host can provide, each time that it is asked. -/
  supply : List Nat := []
  deriving DecidableEq, Repr

/-- Guest memory before the first region is made. -/
def Capacities.memory (c : Capacities) : Heap := { profile := c.profile, supply := c.supply }

/-- The state of a running program. -/
structure Machine where
  stack : Stack
  pools : Stack
  pc : Word
  /-- The index of the module that the program counter points into. -/
  active : Word := 0
  modules : Array (Option Module) := #[]
  moduleCapacity : UInt64
  heap : Heap := {}
  host : Host := {}
  loader : Loader
  /-- Number of instructions executed so far. -/
  steps : Nat := 0
  /-- What happened, oldest first, as far as it is worth a line in the log. -/
  journal : Array Notice := #[]

namespace Machine

/-- A change of the machine that may end in a fault. Changes made before a fault stay. -/
abbrev Action := EStateM Fault Machine

/-! ## Modules -/

/-- Maps the memory of a module into guest memory. Empty memory is at the null address. A module
that has been installed before comes without its memory. -/
def install (heap : Heap) (module : Module) : Module × Heap :=
  match module.memory with
  | .mapped _ _ => ({ module with memory := .detached [] }, heap)
  | .detached [] => ({ module with memory := .mapped 0 0 }, heap)
  | .detached (b :: bs) =>
    let bytes := b :: bs
    let (base, heap) := heap.map bytes
    ({ module with memory := .mapped base bytes.length }, heap)

/-- The machine that starts in a module at its entry point. -/
def start (module : Module) (loader : Loader) (capacities : Capacities) (host : Host) :
    Except Fault Machine :=
  if module.contains module.entry then
    let (installed, heap) := install capacities.memory module
    .ok {
      stack := { role := .evaluation, capacity := capacities.stack.toNat }
      pools := { role := .pool, capacity := capacities.pools.toNat }
      pc := module.entry
      modules := #[some installed]
      moduleCapacity := capacities.modules
      heap, host, loader }
  else .error (.illegalEntryPoint module.entry module.instructions.size)

def module (m : Machine) (index : Word) : Except Fault Module :=
  match (m.modules[index.toNat]?).join with
  | some module => .ok module
  | none => .error (.illegalLibraryIndex index)

def note (n : Notice) : Action Unit := modify fun m => { m with journal := m.journal.push n }

/-- Links the library at a path and gives the new module the next free slot. -/
def link (path : String) : Action Word := do
  let m ← get
  if m.moduleCapacity.toNat ≤ m.modules.size then throw .libraryOverflow
  match Linker.load path m.loader with
  | .error e loader =>
    set { m with loader }
    throw (.link e)
  | .ok module loader =>
    let (installed, heap) := install m.heap module
    let index := m.modules.size
    set { m with loader, heap, modules := m.modules.push (some installed) }
    note (.linked path module.instructions.size module.symbols.size)
    note (.indexed path index)
    return UInt64.ofNat index

def handBack (module : Module) : Action Unit := do
  match module.handle with
  | some handle => note (.unlinked handle.path)
  | none => note .unlinkedNothing
  modify fun m => { m with loader := Linker.unload m.loader module }

/-- Unloads a linked module: its slot is emptied and its memory unmapped. The program itself stays
loaded. -/
def unlink (index : Word) : Action Unit := do
  if index = 0 then throw (.illegalLibraryIndex index)
  let m ← get
  match m.module index with
  | .error e => throw e
  | .ok module =>
    set { m with modules := m.modules.setIfInBounds index.toNat none }
    match module.memory with
    | .mapped base _ =>
      if base ≠ 0 then
        match m.heap.unmap base with
        | .ok (_, heap) => modify fun m => { m with heap }
        | .error e => throw e
    | .detached _ => pure ()
    handBack module

def resolve (m : Machine) (index : Word) (name : Bytes) : Except Fault Word :=
  if index = 0 then .error (.illegalLibraryIndex index)
  else match m.module index with
    | .ok module => Linker.resolve module name
    | .error e => .error e

/-- The machine with all linked modules handed back, in the order of their slots. -/
def shutDown (m : Machine) : Machine :=
  let linked := (m.modules.toList.drop 1).filterMap id
  let m := { m with modules := #[] }
  linked.foldl (fun m module =>
    match handBack module m with
    | .ok () m => m
    | .error _ m => m) m

end Machine

end StackMachine
