import StackMachine.Text.Utf8

/-!
# Directory — host files

The host's files are found by their paths, and a file that was found is known by its number from
then on. Besides the paths that it lists, a directory stands for one folder: a plain name is the
name of a file in that folder, where new files can be made, and leading `.` components of a path
stay in it. Nothing else is known of the host, so that other paths lead nowhere.
-/

namespace StackMachine

structure Directory where
  /-- The paths and the contents of the files, by number. -/
  files : List (String × Bytes) := []
  /-- Paths outside the folder at which a file can be made. -/
  sites : List String := []
  deriving DecidableEq, Repr, Inhabited

/-- Why the host does not give access to a file. -/
inductive Obstacle where
  /-- The path leads nowhere. -/
  | missing
  /-- The file was not opened in the direction in which it is used. -/
  | wrongDirection
  /-- The host does not allow it. -/
  | denied
  /-- The path goes on after a file. -/
  | notFolder
  /-- The path is that of a folder. -/
  | isFolder
  /-- A name has too many bytes. -/
  | nameTooLong
  deriving DecidableEq, Repr

namespace Obstacle

def text : Obstacle → String
  | .missing => "No such file or directory"
  | .wrongDirection => "Bad file descriptor"
  | .denied => "Permission denied"
  | .notFolder => "Not a directory"
  | .isFolder => "Is a directory"
  | .nameTooLong => "File name too long"

def number : Obstacle → Nat
  | .missing => 2
  | .wrongDirection => 9
  | .denied => 13
  | .notFolder => 20
  | .isFolder => 21
  | .nameTooLong => 36

def message (o : Obstacle) : String := o.text ++ " (os error " ++ toString o.number ++ ")"

end Obstacle

namespace Directory

inductive Place where
  | folder
  /-- The file with this number. -/
  | file (number : Nat)
  /-- Nothing yet, but a file can be made with this path. -/
  | vacant (path : String)
  /-- Nothing, and nothing can be made. -/
  | unreachable (why : Obstacle)
  deriving DecidableEq, Repr

def maxNameLength : Nat := 255

def number? (d : Directory) (path : String) : Option Nat := d.files.findIdx? (·.1 == path)

def contents (d : Directory) (number : Nat) : Bytes := (d.files[number]?).elim [] Prod.snd

def rewrite (d : Directory) (number : Nat) (bytes : Bytes) : Directory :=
  { d with files := d.files.modify number fun f => (f.1, bytes) }

/-- Makes an empty file and returns its number. -/
def make (d : Directory) (path : String) : Nat × Directory :=
  (d.files.length, { d with files := d.files ++ [(path, [])] })

/-- Replaces the bytes of the file with this path, or makes it. -/
def put (d : Directory) (path : String) (bytes : Bytes) : Directory :=
  match d.number? path with
  | some number => d.rewrite number bytes
  | none => { d with files := d.files ++ [(path, bytes)] }

/-- What a name and the components after it lead to. -/
def enter (d : Directory) (name : String) (rest : List String) : Place :=
  if (Utf8.encode name).length > maxNameLength then .unreachable .nameTooLong
  else match d.number? name with
    | some number => if rest.isEmpty then .file number else .unreachable .notFolder
    | none => if rest.isEmpty then .vacant name else .unreachable .missing

def locate (d : Directory) (path : String) : Place :=
  match d.number? path with
  | some number => .file number
  | none =>
    if d.sites.contains path then .vacant path
    else if path = "" ∨ path.any (· == '\x00') then .unreachable .missing
    else
      let components := path.splitOn "/"
      if components.all fun c => c == "" || c == "." || c == ".." then .folder
      else if path.startsWith "/" then .unreachable .missing
      else match components.dropWhile fun c => c == "" || c == "." with
        | [] => .folder
        | name :: rest => if name = ".." then .unreachable .missing else d.enter name rest

def read (d : Directory) (path : String) : Except Obstacle Bytes :=
  match d.locate path with
  | .file number => .ok (d.contents number)
  | .folder => .error .isFolder
  | .vacant _ => .error .missing
  | .unreachable why => .error why

end Directory

end StackMachine
