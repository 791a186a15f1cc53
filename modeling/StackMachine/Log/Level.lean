import StackMachine.Text.Blank
import StackMachine.Text.Layout

/-!
# Level — how much a notice matters

Notices have one of three levels. A filter lets through the notices of a least level, or none.
-/

namespace StackMachine

/-- How much a notice matters. -/
inductive Level where
  | info
  | warn
  | error
  deriving DecidableEq, Repr

namespace Level

def rank : Level → Nat
  | .info => 1
  | .warn => 2
  | .error => 3

def name : Level → String
  | .info => "INFO"
  | .warn => "WARN"
  | .error => "ERROR"

end Level

/-- The least level that is let through, or nothing to silence all. -/
abbrev Filter := Option Level

namespace Filter

def minRank : Filter → Nat
  | some level => level.rank
  | none => 255

def passes (f : Filter) (level : Level) : Bool := f.minRank ≤ level.rank

/-- Reads a filter by name, in any ASCII case and with any white space around it. An unknown name
is returned as it was compared. -/
def parse (text : String) : Except String Filter :=
  let word := String.ofList ((Text.trim text).toList.map Char.toLower)
  if word = "info" then .ok (some .info)
  else if word = "warn" then .ok (some .warn)
  else if word = "error" then .ok (some .error)
  else if word = "off" then .ok none
  else .error word

def unknown (word : String) : String := s!"unknown log level '{word}'"

end Filter

end StackMachine
