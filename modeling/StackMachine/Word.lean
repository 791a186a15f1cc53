import StackMachine.Text.Layout

/-!
# Word — untagged machine values

A machine word is sixty-four untagged bits. Nothing records whether a word holds an unsigned
integer, a signed integer, a float or a guest address; each instruction picks the reading that it
needs. This module fixes the readings:

* the unsigned reading and the address are the word itself;
* `Word.signed` and `Word.ofSigned` — two's complement;
* `Word.float` and `Word.ofFloat` — IEEE 754 binary64, bit for bit.
-/

namespace StackMachine

abbrev Word := UInt64

namespace Word

/-! ## Readings -/

/-- The two's complement reading. -/
def signed (w : Word) : Int64 := w.toInt64

/-- The word whose two's complement reading is `i`. -/
def ofSigned (i : Int64) : Word := i.toUInt64

def float (w : Word) : Float := Float.ofBits w

def ofFloat (x : Float) : Word := x.toBits

/-- Truth values are the words one and zero. -/
def ofBool (b : Bool) : Word := if b then 1 else 0

def isZero (w : Word) : Bool := w == 0

/-- The word as a tagged hexadecimal number, for inspection. -/
def inspect (w : Word) : String := "Word(" ++ Text.hex 16 w.toNat ++ ")"

end Word

end StackMachine
