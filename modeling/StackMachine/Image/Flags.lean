/-!
# Flags — what an image is marked as

Four bits of a byte mark an image as relocatable, executable, built with errors, or a library. The
other bits are kept as they are and have no name.
-/

namespace StackMachine

/-- The marks of an image. -/
structure Flags where
  bits : UInt8 := 0
  deriving DecidableEq, Repr, Inhabited

namespace Flags

def none : Flags := ⟨0⟩

/-- The image may be moved. -/
def relocatable : Flags := ⟨1⟩

/-- The image can be run. -/
def executable : Flags := ⟨2⟩

/-- The image was built in spite of errors. -/
def containsError : Flags := ⟨4⟩

/-- The image can be linked to a running machine. -/
def library : Flags := ⟨8⟩

def union (a b : Flags) : Flags := ⟨a.bits ||| b.bits⟩

/-- Whether every mark of `b` is also one of `a`. -/
def contains (a b : Flags) : Bool := a.bits &&& b.bits == b.bits

/-- The named marks, in the order of their bits. -/
def names : List (Flags × String) :=
  [(relocatable, "relocatable"), (executable, "executable"), (containsError, "contains-error"),
    (library, "library")]

def text (f : Flags) : String :=
  match names.filterMap fun (mark, name) => if f.contains mark then some name else Option.none with
  | [] => "none"
  | set => " | ".intercalate set

/-- The byte as a tagged number, for inspection. -/
def inspect (f : Flags) : String := "Flags(" ++ toString f.bits ++ ")"

end Flags

end StackMachine
