import StackMachine.Inspector
import StackMachine.Machine.Step

/-!
# Runner — running an image from the command line

The runner loads an executable, runs it until it halts and leaves with the guest's exit code, or
with the status number of the fault. Log lines go to the error stream of the process, between what
the guest writes there.

* `Runner.request` — reads the arguments;
* `Runner.boot` — makes the machine;
* `Runner.finish` — what is left to do when the machine has halted;
* `Runner.execute` — all of it, for a machine that halts within a number of steps.
-/

namespace StackMachine
namespace Runner

/-! ## Arguments -/

def usage (program : String) : String :=
  Text.lines [
    "Usage: " ++ program ++ " <image> [OPTIONS]",
    "",
    "Options:",
    "  --stack <n>     Evaluation stack capacity (default 1024)",
    "  --pools <n>     Pool-allocation stack capacity (default 1024)",
    "  --modules <n>   Module table capacity (default 64)",
    "  --quiet         Disable logging",
    "",
    "Environment:",
    "  CF_LOG          Log level: info, warn, error or off"]

/-- The variables that the runner looks at. -/
structure Environment where
  /-- The name of a log filter. -/
  log : Option String := none
  /-- The kind of terminal. -/
  terminal : Option String := none
  /-- Whether colours are not wanted. -/
  colourless : Bool := false
  deriving DecidableEq, Repr

/-- Whether log lines are coloured: on any terminal but a dumb one, unless not wanted. -/
def Environment.coloured (e : Environment) : Bool :=
  !e.colourless && e.terminal.any (· != "dumb")

/-- The value of a decimal number that fits in a word, with or without a plus sign. -/
def number? (text : String) : Option UInt64 :=
  let digits := match text.toList with
    | '+' :: rest => rest
    | digits => digits
  if digits.isEmpty || !digits.all Char.isDigit then none
  else
    let n := digits.foldl (fun n c => n * 10 + (c.toNat - '0'.toNat)) 0
    if n < UInt64.size then some (UInt64.ofNat n) else none

/-- What is to be run, and how. -/
structure Job where
  console : Console
  path : String
  capacities : Capacities := {}

inductive Request where
  /-- Leave at once. -/
  | leave (report : Report)
  /-- Run an image. -/
  | run (job : Job)

/-- Reads the options after the image path in order. -/
def options (stamp program : String) (job : Job) : (arguments : List String) → Request
  | [] => .run job
  | "--quiet" :: rest =>
    options stamp program { job with console := { job.console with filter := none } } rest
  | [flag] =>
    if flag = "--stack" ∨ flag = "--pools" ∨ flag = "--modules" then
      refuse s!"{flag} requires an argument" ""
    else unexpected flag
  | flag :: value :: rest =>
    match flag, number? value with
    | "--stack", some n =>
      if n = 0 then invalid flag value
      else options stamp program { job with capacities.stack := n } rest
    | "--pools", some n =>
      if n = 0 then invalid flag value
      else options stamp program { job with capacities.pools := n } rest
    | "--modules", some n =>
      if n = 0 then invalid flag value
      else options stamp program { job with capacities.modules := n } rest
    | "--stack", none | "--pools", none | "--modules", none => invalid flag value
    | _, _ => unexpected flag
where
  /-- Leaves with a complaint and some more text. -/
  refuse (reason more : String) : Request :=
    .leave { code := 1, errors := job.console.render stamp (.refused reason) ++ more }
  /-- Leaves because of an argument that has no meaning. -/
  unexpected (argument : String) : Request :=
    refuse s!"Unexpected argument: {argument}\n" (usage program)
  /-- Leaves because of a value that is no capacity. -/
  invalid (flag value : String) : Request :=
    refuse s!"Invalid value for {flag}: '{value}' is not a positive number" ""

def request (environment : Environment) (stamp program : String) :
    (arguments : List String) → Request
  | [] => .leave { code := 1, errors := usage program }
  | path :: rest =>
    if path = "--help" ∨ path = "-h" then .leave { code := 0, errors := usage program }
    else
      let filter := match environment.log with
        | some name => Filter.parse name
        | none => .ok (some .info)
      match filter with
      | .error word => .leave { code := 1, errors := "CF_LOG: " ++ Filter.unknown word ++ "\n" }
      | .ok filter =>
        let console : Console := { filter, coloured := environment.coloured }
        options stamp program { console, path } rest

/-! ## Running -/

/-- The machine that runs an image, with the log lines so far; or the report of a failure. -/
def boot (job : Job) (stamp : String) (image : Except String Bytes) (loader : Loader)
    (host : Host) : Except Report (Machine × String) :=
  let line n := job.console.render stamp n
  let path := job.path
  match image with
  | .error reason =>
    .error { code := 1, errors := line (.refused s!"Cannot read {path}: {reason}") }
  | .ok bytes =>
    match Load.executable bytes with
    | .error e =>
      .error { code := 1, errors := line (.refused (s!"Cannot load {path}: " ++ e.message)) }
    | .ok (header, module) =>
      match Machine.start module loader job.capacities host with
      | .error e =>
        let errors := line (.imageLoaded header) ++ line (.refused e.message)
        .error { code := e.exitCode, errors }
      | .ok m => .ok (m, line (.imageLoaded header) ++ line (.running path))

/-- Writes the journal to the error stream as log lines and empties it. -/
def writeJournal (console : Console) (stamp : String) (m : Machine) : Machine :=
  if m.journal.isEmpty then m
  else
    let text := String.join (m.journal.toList.map (console.render stamp))
    { m with
      journal := #[]
      host.stderr := { m.host.stderr with written := m.host.stderr.written ++ Utf8.encode text } }

def haltNotice (fault : Fault) (steps : Nat) : Notice :=
  match fault with
  | .exit code => .exited code steps
  | fault => .halted fault steps

/-- The halted machine after its last words: the reason is noted and all modules are handed back. -/
def finish (console : Console) (stamp : String) (m : Machine) (fault : Fault) : Machine :=
  let m := { m with journal := m.journal.push (haltNotice fault m.steps) }
  writeJournal console stamp m.shutDown

/-- Steps the machine until it halts, at most `fuel` times, and writes its journal as it goes. -/
def steps (table : Interrupt.Table) (console : Console) (stamp : String) :
    (fuel : Nat) → Machine → Option Fault × Machine
  | 0, m => (none, m)
  | fuel + 1, m =>
    match Machine.step table m with
    | .ok () m => steps table console stamp fuel (writeJournal console stamp m)
    | .error e m => (some e, writeJournal console stamp m)

/-- What a finished run leaves behind. -/
structure Result where
  code : Int32
  output : Bytes
  errors : Bytes
  directory : Directory

/-- Follows a command line to its end. The answer is missing if the machine is still running after
`fuel` steps. -/
def execute (fuel : Nat) (environment : Environment) (stamp program : String)
    (arguments : List String) (loader : Loader) (host : Host) : Option Result :=
  let leave (r : Report) : Result := ⟨r.code, [], Utf8.encode r.errors, host.directory⟩
  match request environment stamp program arguments with
  | .leave report => some (leave report)
  | .run job =>
    let image := (host.directory.read job.path).mapError Obstacle.message
    match boot job stamp image loader host with
    | .error report => some (leave report)
    | .ok (m, log) =>
      match steps Interrupt.standard job.console stamp fuel m with
      | (none, _) => none
      | (some fault, m) =>
        let m := finish job.console stamp m fault
        some ⟨fault.exitCode, m.host.stdout.written.toList,
          Utf8.encode log ++ m.host.stderr.written.toList, m.host.directory⟩

end Runner
end StackMachine
