import StackMachine.Image.Basic
import StackMachine.PoolTable
import StackMachine.Text.Quoted

/-!
# Module — a loaded program unit

A module is what one image contributes to a running machine: its instructions, the pool table, the
exported symbols and the memory segment. A module linked while the machine runs also remembers its
path and the handle under which the loader knows it.
-/

namespace StackMachine

/-- A library as the loader knows it. Handles are numbered in the order in which they are issued. -/
structure Handle where
  id : Nat
  path : String
  deriving DecidableEq, Repr

def Handle.inspect (h : Handle) : String :=
  "NativeHandle \x7b path: " ++ Text.quoted h.path ++ ", .. \x7d"

/-- The memory of a module. -/
inductive Segment where
  /-- The bytes are still with the module. -/
  | detached (bytes : Bytes)
  /-- The bytes are in guest memory, from `base` on. -/
  | mapped (base : Word) (length : Nat)
  deriving DecidableEq, Repr

namespace Segment

def length : Segment → Nat
  | .detached bytes => bytes.length
  | .mapped _ length => length

/-- The address of the first byte, for memory that is mapped. -/
def base? : Segment → Option Word
  | .detached _ => none
  | .mapped base _ => some base

end Segment

/-- A loaded program unit. -/
structure Module where
  instructions : Array Instruction := #[]
  pool : PoolTable := default
  symbols : Array Symbol := #[]
  memory : Segment := .detached []
  entry : Word := 0
  path : Option String := none
  handle : Option Handle := none
  deriving Repr, Inhabited

namespace Module

/-- Whether an address is that of one of the module's instructions. -/
def contains (m : Module) (address : Word) : Bool := address.toNat < m.instructions.size

/-- The first symbol with exactly the given name. -/
def symbol? (m : Module) (name : Bytes) : Option Symbol :=
  m.symbols.find? (Utf8.encode ·.name == name)

end Module

end StackMachine
