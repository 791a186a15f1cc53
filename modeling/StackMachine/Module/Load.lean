import StackMachine.Image.Section
import StackMachine.Module

/-!
# Load — from an image to a module

Loading reads the parts of an image in order and puts each into the module as soon as it is read.
When a part is refused, the parts before it stay in the module. An image marked as built with
errors is refused right after its header.
-/

namespace StackMachine
namespace Load

/-- A module being filled, and the part of its image that is not read yet. -/
structure Progress where
  module : Module
  unread : Bytes

/-- The table of the pool entries, with one bucket for each. -/
def poolTable (entries : Array PoolEntry) : PoolTable :=
  entries.foldl (fun table e => table.put e.address e.size) (.withCapacity entries.size)

end Load

abbrev Loading := EStateM LoadError Load.Progress

namespace Loading

def next (part : Section α) : Loading α := fun p =>
  match part p.unread with
  | .ok (a, rest) => .ok a { p with unread := rest }
  | .error e => .error e p

def fill (f : Module → Module) : Loading Unit :=
  modify fun p => { p with module := f p.module }

/-- Reads a whole image into the module. -/
def image : Loading Header := do
  let header ← next Section.header
  if header.flags.contains .containsError then throw .containsErrors
  let entries ← next (Section.pool header)
  fill fun m => { m with pool := Load.poolTable entries }
  let instructions ← next (Section.program header)
  fill fun m => { m with instructions }
  let symbols ← next (Section.symbols header)
  fill fun m => { m with symbols }
  let memory ← next (Section.memory header)
  fill fun m => { m with memory := .detached memory, entry := header.entry }
  next Section.finish
  return header

end Loading

namespace Load

/-- Loads an image into a module. The module holds what was read, also after an error. -/
def into (module : Module) (image : Bytes) : Except LoadError Header × Module :=
  match Loading.image ⟨module, image⟩ with
  | .ok header p => (.ok header, p.module)
  | .error e p => (.error e, p.module)

def libraryInto (module : Module) (image : Bytes) : Except LoadError Unit × Module :=
  match into module image with
  | (.ok header, module) =>
    if header.flags.contains .library then (.ok (), module) else (.error .notLibrary, module)
  | (.error e, module) => (.error e, module)

/-- Loads an executable, with the header of its image. -/
def executable (image : Bytes) : Except LoadError (Header × Module) :=
  match into {} image with
  | (.ok header, module) =>
    if header.flags.contains .executable then .ok (header, module) else .error .notExecutable
  | (.error e, _) => .error e

end Load
end StackMachine
