import StackMachine.Host.Directory
import StackMachine.Linker.Loader

/-!
# Platform — shared libraries as files

The loader of the platform looks libraries up by file. A path without a file, or with a file that
is no library, is refused in the platform's words. The empty path stands for the running program,
which exports no image.
-/

namespace StackMachine
namespace Loader

/-- The least number of bytes in the header of a library file. -/
def libraryHeaderLength : Nat := 64

/-- Why a path is refused at which there is no library. -/
def platformReason (files : Directory) (path : String) : String :=
  match files.read path with
  | .error .isFolder => path ++ ": cannot read file data: " ++ Obstacle.isFolder.text
  | .error why => path ++ ": cannot open shared object file: " ++ why.text
  | .ok bytes =>
    if bytes.length < libraryHeaderLength then path ++ ": file too short"
    else path ++ ": invalid ELF header"

/-- The loader of the platform, for the libraries and the other files that it finds. A path without
a slash is not looked up among the files. -/
def platform (libraries : List (String × Option Bytes)) (files : Directory) : Loader where
  answer _ path :=
    match libraries.lookup path with
    | some image => .mapped image
    | none =>
      if path = "" then .mapped none
      else if path.any (· == '/') then .refused (platformReason files path)
      else .refused (platformReason {} path)

end Loader
end StackMachine
