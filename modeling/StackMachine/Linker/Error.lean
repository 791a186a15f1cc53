import StackMachine.Image.Error

/-!
# Link errors — why a module cannot be linked
-/

namespace StackMachine

inductive LinkError where
  /-- The loader finds no library at the path. -/
  | cannotMap (path reason : String)
  /-- The library exports no image. -/
  | missingEntryPoint (path : String)
  /-- The exported image is refused. -/
  | image (path : String) (cause : LoadError)
  deriving DecidableEq, Repr

def LinkError.message : LinkError → String
  | .cannotMap path reason => s!"cannot map module {path}: {reason}"
  | .missingEntryPoint path => s!"module {path} has no entry point"
  | .image path cause =>
    let reason := cause.message
    s!"module {path} failed to load: {reason}"

end StackMachine
