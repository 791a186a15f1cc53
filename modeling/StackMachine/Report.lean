/-!
# Report — what a command line leaves behind

A command line that ends without running a guest is told in full by its exit code, its output and
its complaints.
-/

namespace StackMachine

/-- What a command line leaves behind. -/
structure Report where
  /-- The exit code. -/
  code : Int32
  /-- What is written to the output stream. -/
  output : String := ""
  /-- What is written to the error stream. -/
  errors : String := ""
  deriving Repr

end StackMachine
