import StackMachine.Image.Section
import StackMachine.Log.Notice
import StackMachine.Report

/-!
# Inspector — an image in print

The inspector prints the parts of an image without running it: the header, the pool entries, the
symbols and the program. It reads every image that is well-formed, also one that is marked as built
with errors.

* `Inspector.instructionLines` — the program as it is listed, with the entry point marked;
* `Inspector.inspect` — the command line: its output, its complaints and its exit code.
-/

namespace StackMachine
namespace Inspector

/-- The parts of an image that can be printed. -/
structure Selection where
  header : Bool := false
  pool : Bool := false
  symbols : Bool := false
  program : Bool := false
  deriving DecidableEq, Repr

namespace Selection

def all : Selection := ⟨true, true, true, true⟩

/-- The selection, or all parts if nothing is selected. -/
def orAll (s : Selection) : Selection :=
  if s.header || s.pool || s.symbols || s.program then s else all

end Selection

/-! ## Printing -/

def field (label value : String) : String := Text.right 15 label ++ ": " ++ value

def headerLines (h : Header) (memory : Nat) : List String :=
  ["Header:",
    field "Magic" (Utf8.lossy h.magic.toList),
    field "Version" (toString h.version),
    field "Flags" h.flags.text,
    field "EntryPoint" (toString h.entry),
    field "Pools" (toString h.poolSize),
    field "Instructions" (toString h.programSize),
    field "Symbols" (toString h.symbolSize),
    field "Memory" (toString memory),
    ""]

def poolLines (pool : Array PoolEntry) : List String :=
  ["Pool:"] ++
    pool.toList.map (fun e => field (Text.hex 1 e.address.toNat) (toString e.size ++ " bytes")) ++
    [""]

def symbolLines (symbols : Array Symbol) : List String :=
  ["Symbols:"] ++ symbols.toList.map (fun s => field s.name (Text.hex 1 s.address.toNat)) ++ [""]

/-- The line of an instruction: a mark at the entry point, the index and the instruction. -/
def instructionLine (entry : Word) (width index : Nat) (i : Instruction) : String :=
  let mark := if index = entry.toNat then ">" else " "
  mark ++ " " ++ Text.right width (toString index) ++ "  " ++ i.text

def instructionLines (entry : Word) (instructions : Array Instruction) : List String :=
  let width := (toString (max 1 instructions.size)).length
  instructions.toList.zipIdx.map fun (i, index) => instructionLine entry width index i

def programLines (entry : Word) (instructions : Array Instruction) : List String :=
  ["Program:"] ++ instructionLines entry instructions ++ [""]

/-- The selected parts of an image in print. -/
def print (s : Selection) (h : Header) (image : Image) : String :=
  Text.lines ((if s.header then headerLines h image.memory.length else []) ++
    (if s.pool then poolLines image.pool else []) ++
    (if s.symbols then symbolLines image.symbols else []) ++
    (if s.program then programLines h.entry image.instructions else []))

/-! ## Command line -/

def usage (program : String) : String :=
  Text.lines [
    "Usage: " ++ program ++ " <image> [-h] [-p] [-s] [-d]",
    "",
    "  -h   Header",
    "  -p   Pool table",
    "  -s   Symbols",
    "  -d   Disassembly"]

inductive Request where
  /-- Explain the arguments. -/
  | help
  /-- An option is unknown. -/
  | unexpected (argument : String)
  /-- No image is named. -/
  | missingFile
  /-- Print parts of an image. -/
  | print (selection : Selection) (path : String)
  deriving DecidableEq, Repr

/-- Reads the arguments in order. The last path counts. -/
def request (s : Selection) (path : Option String) : (arguments : List String) → Request
  | [] => match path with
    | some path => .print s.orAll path
    | none => .missingFile
  | "-h" :: rest => request { s with header := true } path rest
  | "-p" :: rest => request { s with pool := true } path rest
  | "-s" :: rest => request { s with symbols := true } path rest
  | "-d" :: rest => request { s with program := true } path rest
  | "--help" :: _ => .help
  | argument :: rest =>
    if argument.startsWith "-" then .unexpected argument else request s (some argument) rest

/-- Prints parts of the image with the given bytes, or says why they could not be read. -/
def printImage (complain : String → String) (s : Selection) (path : String)
    (bytes : Except String Bytes) : Report :=
  match bytes with
  | .error reason => { code := 1, errors := complain s!"Cannot read {path}: {reason}" }
  | .ok bytes =>
    match Section.image bytes with
    | .error e => { code := 1, errors := complain (s!"Cannot decode {path}: " ++ e.message) }
    | .ok ((header, image), _) => { code := 0, output := print s header image }

/-- Follows a command line. -/
def inspect (console : Console) (stamp program : String) (arguments : List String)
    (read : String → Except String Bytes) : Report :=
  let complain reason := console.render stamp (.refused reason)
  match request {} none arguments with
  | .help => { code := 0, errors := usage program }
  | .unexpected argument =>
    { code := 1, errors := complain s!"Unexpected argument: {argument}\n" ++ usage program }
  | .missingFile => { code := 1, errors := complain "Missing file" ++ usage program }
  | .print selection path => printImage complain selection path (read path)

end Inspector
end StackMachine
