import Std.Time.DateTime.Timestamp
import StackMachine.Linker.Platform
import StackMachine.Log.Calendar
import StackMachine.Runner
import StackMachine.Runner.Demand

/-!
# Main — the two command lines

The program is the inspector if it is called `cfdump`, and the runner otherwise. This module moves
data between the outside and the host of the machine and decides nothing else: files and input are
brought in before the instruction that needs them, and what an instruction wrote is carried out
after it. The file at a module's path holds the image that the module exports.
-/

namespace StackMachine
namespace Main

/-- The present moment, as it stands in the log. -/
def now : IO String := do
  let moment := (← Std.Time.Timestamp.now).toDurationSinceUnixEpoch
  return Calendar.timestamp moment.second.val.toNat moment.nano.val.toNat

def readFile (path : String) : IO (Except String Bytes) := do
  try
    let bytes ← IO.FS.readBinFile path
    return .ok bytes.data.toList
  catch e =>
    match e with
    | .noFileOrDirectory .. => return .error Obstacle.missing.message
    | .inappropriateType _ code _ =>
      let why : Obstacle := if code = 20 ∨ code = 0 - 20 then .notFolder else .isFolder
      return .error why.message
    | .permissionDenied .. => return .error Obstacle.denied.message
    | e => return .error (toString e)

def folderExists (path : String) : IO Bool := do
  let folder := "/".intercalate (path.splitOn "/").dropLast
  try
    let _ ← IO.FS.realPath (if folder.isEmpty then "/" else folder)
    return true
  catch _ => return false

/-- Reads up to `length` bytes, unless the stream ends before. -/
partial def readInput (stream : IO.FS.Stream) (length : Nat) (got : Bytes) : IO Bytes := do
  if got.length < length then
    let bytes ← stream.read (length - got.length).toUSize
    if bytes.isEmpty then return got
    readInput stream length (got ++ bytes.data.toList)
  else return got

/-- Brings in what an instruction needs. -/
def supply (m : Machine) : Option Demand → IO Machine
  | some (.file path) => do
    let directory := m.host.directory
    match ← readFile path with
    | .ok bytes => return { m with host.directory := directory.put path bytes }
    | .error _ =>
      if path.any (· == '/') then
        if ← folderExists path then
          let sites := path :: directory.sites
          return { m with host.directory := { directory with sites } }
      return m
  | some (.library path) => do
    let libraries := match ← readFile path with
      | .ok bytes => [(path, some bytes)]
      | .error _ => []
    return { m with loader := { m.loader with answer := (Loader.platform libraries {}).answer } }
  | some (.input length) => do
    let bytes ← readInput (← IO.getStdin) length []
    return { m with host.stdin := .ofBytes bytes }
  | _ => return m

/-- Carries out what was written to the standard streams, and forgets it. -/
def flush (m : Machine) : IO Machine := do
  let output := m.host.stdout.written
  let errors := m.host.stderr.written
  if output.isEmpty && errors.isEmpty then return m
  let stdout ← IO.getStdout
  stdout.write ⟨output⟩
  stdout.flush
  let stderr ← IO.getStderr
  stderr.write ⟨errors⟩
  stderr.flush
  let host := { m.host with
    stdout := { m.host.stdout with written := #[] }
    stderr := { m.host.stderr with written := #[] } }
  return { m with host }

/-- Carries out the changes to files. -/
def saveFiles (before after : Directory) : IO Unit := do
  for (path, bytes) in after.files do
    unless before.files.lookup path = some bytes do
      IO.FS.writeBinFile path ⟨bytes.toArray⟩

/-- Runs a machine until it halts. -/
partial def drive (console : Console) (m : Machine) : IO UInt32 := do
  let demand := Demand.next? m
  let m ← supply m demand
  let before := m.host.directory
  match Machine.step Interrupt.standard m with
  | .ok () m =>
    if demand.isSome then saveFiles before m.host.directory
    let stamp ← now
    drive console (← flush (Runner.writeJournal console stamp m))
  | .error fault m =>
    if demand.isSome then saveFiles before m.host.directory
    let m := Runner.finish console (← now) m fault
    let _ ← flush m
    return (UInt32.ofInt fault.exitCode.toInt)

/-- Prints a report and returns its exit code. -/
def leave (report : Report) : IO UInt32 := do
  IO.print report.output
  IO.eprint report.errors
  return (UInt32.ofInt report.code.toInt)

def environment : IO Runner.Environment := do
  let log ← IO.getEnv "CF_LOG"
  let terminal ← IO.getEnv "TERM"
  let colourless := (← IO.getEnv "NO_COLOR").isSome
  return { log, terminal, colourless }

def inspect (program : String) (arguments : List String) : IO UInt32 := do
  let console : Console := { coloured := (← environment).coloured }
  let stamp ← now
  match Inspector.request {} none arguments with
  | .print _ path =>
    let bytes ← readFile path
    leave (Inspector.inspect console stamp program arguments fun _ => bytes)
  | _ => leave (Inspector.inspect console stamp program arguments fun _ => .ok [])

def run (program : String) (arguments : List String) : IO UInt32 := do
  let stamp ← now
  match Runner.request (← environment) stamp program arguments with
  | .leave report => leave report
  | .run job =>
    match Runner.boot job stamp (← readFile job.path) (Loader.platform [] {}) {} with
    | .error report => leave report
    | .ok (m, log) =>
      IO.eprint log
      drive job.console m

end Main
end StackMachine

/-- The inspector or the runner, by the name of the program. -/
def main (arguments : List String) : IO UInt32 := do
  let program := (← IO.appPath).fileName.getD "codefusion"
  if program == "cfdump" then StackMachine.Main.inspect program arguments
  else StackMachine.Main.run program arguments
