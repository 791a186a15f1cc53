import StackMachine.Fault
import StackMachine.Image.Header
import StackMachine.Log.Level

/-!
# Notice — what the log says

Every line of the log reports one event. `Notice.level` and `Notice.message` fix how much the event
matters and how it is worded; a `Console` turns it into the text that goes to the error stream.
-/

namespace StackMachine

/-- An event worth a line in the log. -/
inductive Notice where
  /-- An executable was loaded. -/
  | imageLoaded (header : Header)
  /-- A machine is about to run the image at a path. -/
  | running (path : String)
  /-- A library was linked. -/
  | linked (path : String) (instructions symbols : Nat)
  /-- A linked module got its index. -/
  | indexed (path : String) (index : Nat)
  /-- A library was released. -/
  | unlinked (path : String)
  /-- A module without a library was released. -/
  | unlinkedNothing
  /-- The guest left. -/
  | exited (code : Int64) (steps : Nat)
  /-- The machine halted on a fault. -/
  | halted (fault : Fault) (steps : Nat)
  /-- A command line could not be followed. -/
  | refused (reason : String)
  deriving DecidableEq, Repr

namespace Notice

def level : Notice → Level
  | .unlinkedNothing | .halted .. => .warn
  | .refused _ => .error
  | _ => .info

def message : Notice → String
  | .imageLoaded h =>
    let program := h.programSize
    let pool := h.poolSize
    let symbols := h.symbolSize
    let memory := h.memorySize
    s!"loaded image: {program} instructions, {pool} pool entries, {symbols} symbols, " ++
      s!"{memory} bytes of memory"
  | .running path => s!"running {path}"
  | .linked path instructions symbols =>
    s!"linked {path}: {instructions} instructions, {symbols} symbols"
  | .indexed path index => s!"module {path} is index {index}"
  | .unlinked path => s!"unlinked {path}"
  | .unlinkedNothing => "unload of a module without native handle"
  | .exited code steps => s!"machine exited with code {code} after {steps} steps"
  | .halted fault steps =>
    let name := fault.statusName
    let reason := fault.message
    s!"machine halted after {steps} steps: {name} ({reason})"
  | .refused reason => reason

end Notice

/-- The way log lines are written. -/
structure Console where
  /-- The least level that is written. -/
  filter : Filter := some .info
  /-- Whether lines are coloured by their level. -/
  coloured : Bool := false

namespace Console

/-- The colour of a level; plain lines only have their style reset. -/
def style : Level → String
  | .info => "\x1b[0m"
  | .warn => "\x1b[0m\x1b[1m\x1b[33m"
  | .error => "\x1b[0m\x1b[1m\x1b[31m"

/-- The text of a notice, with the moment at which it is written. -/
def render (c : Console) (stamp : String) (n : Notice) : String :=
  if c.filter.passes n.level then
    let line := stamp ++ " [" ++ Text.left 5 n.level.name ++ "] " ++ n.message ++ "\n"
    if c.coloured then style n.level ++ line ++ "\x1b[0m" else line
  else ""

end Console

end StackMachine
