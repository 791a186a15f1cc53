import StackMachine.Fault
import StackMachine.Linker.Error
import StackMachine.Linker.Loader
import StackMachine.Module.Load

/-!
# Linker — from a path to a module

Linking maps the library at a path and loads the image that it exports into an empty module. When
the image is missing or refused, the library is released again at once.
-/

namespace StackMachine
namespace Linker

def load (path : String) : EStateM LinkError Loader Module := fun l =>
  match l.answer l.history path with
  | .refused reason => .error (.cannotMap path reason) (l.record (.refused path))
  | .mapped image =>
    let handle : Handle := ⟨l.loads, path⟩
    let l := l.record (.mapped handle)
    match image with
    | none => .error (.missingEntryPoint path) (l.record (.released handle))
    | some bytes =>
      match Load.libraryInto {} bytes with
      | (.ok (), module) => .ok { module with path := some path, handle := some handle } l
      | (.error e, _) => .error (.image path e) (l.record (.released handle))

/-- Releases the library behind a module. A module that was not linked has none. -/
def unload (l : Loader) (module : Module) : Loader :=
  match module.handle with
  | some handle => l.record (.released handle)
  | none => l

/-- The address of a symbol that a module exports. -/
def resolve (module : Module) (name : Bytes) : Except Fault Word :=
  match module.symbol? name with
  | some symbol => .ok symbol.address
  | none => .error (.symbolNotFound (Utf8.lossy name))

end Linker
end StackMachine
