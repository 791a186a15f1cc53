import StackMachine.Module

/-!
# Loader — where libraries come from

A loader maps the library at a path, hands out the image that the library exports, and releases
the library again. How it answers may depend on everything that was asked of it before, so a loader
is a function of its own history. The history also counts: every mapped library gets a handle of
its own, numbered from zero.
-/

namespace StackMachine

/-- What a loader finds at a path. -/
inductive Mapping where
  /-- There is no library. -/
  | refused (reason : String)
  /-- There is a library, which may export an image. -/
  | mapped (image : Option Bytes)
  deriving DecidableEq, Repr

inductive Loader.Event where
  | refused (path : String)
  | mapped (handle : Handle)
  | released (handle : Handle)
  deriving DecidableEq, Repr

/-- A source of libraries, with its history, newest event first. -/
structure Loader where
  answer : List Loader.Event → String → Mapping
  history : List Loader.Event := []

namespace Loader

def Event.isMapped : Event → Bool
  | .mapped _ => true
  | _ => false

def Event.isReleased : Event → Bool
  | .released _ => true
  | _ => false

def loads (l : Loader) : Nat := l.history.countP Event.isMapped

def unloads (l : Loader) : Nat := l.history.countP Event.isReleased

def record (l : Loader) (e : Event) : Loader := { l with history := e :: l.history }

/-- The loader of a fixed list of libraries. The first entry of a path counts. -/
def registry (libraries : List (String × Option Bytes)) : Loader where
  answer _ path := match libraries.lookup path with
    | some image => .mapped image
    | none => .refused "no such module"

end Loader

end StackMachine
