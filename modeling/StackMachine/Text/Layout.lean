/-!
# Layout — lines, padded fields and hexadecimal numbers

Text fields are padded to a least width and never cut. The filling stands after the text
(`Text.left`), before it (`Text.right`), or on both sides with the odd blank after it
(`Text.centre`).
-/

namespace StackMachine
namespace Text

/-- A run of `n` copies of a character. -/
def fill (c : Char) (n : Nat) : String := String.ofList (List.replicate n c)

/-- A text made of lines, each with its end. -/
def lines (ls : List String) : String := String.join (ls.map (· ++ "\n"))

def left (width : Nat) (s : String) : String := s ++ fill ' ' (width - s.length)

def right (width : Nat) (s : String) : String := fill ' ' (width - s.length) ++ s

def centre (width : Nat) (s : String) : String :=
  let room := width - s.length
  fill ' ' (room / 2) ++ s ++ fill ' ' (room - room / 2)

/-- A decimal number with leading zeros. -/
def zeros (width n : Nat) : String :=
  let digits := toString n
  fill '0' (width - digits.length) ++ digits

/-- The lower-case hexadecimal digits of a number, with leading zeros. -/
def hexDigits (width n : Nat) : String :=
  let digits := String.ofList (Nat.toDigits 16 n)
  fill '0' (width - digits.length) ++ digits

/-- A hexadecimal number with its mark and at least `width` digits. -/
def hex (width n : Nat) : String := "0x" ++ hexDigits width n

end Text
end StackMachine
