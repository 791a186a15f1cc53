import StackMachine.Bytes

/-!
# Utf8 — text and its bytes

`Utf8.encode` and `Utf8.decode?` move between text and its UTF-8 bytes. `Utf8.lossy` accepts any
bytes: what cannot be read is replaced by U+FFFD, once for each longest run of bytes that starts a
well-formed character without finishing it.
-/

namespace StackMachine
namespace Utf8

def encode (s : String) : Bytes := s.toUTF8.data.toList

/-- The text with the given UTF-8 bytes, if they are well-formed. -/
def decode? (bs : Bytes) : Option String := String.fromUTF8? ⟨bs.toArray⟩

/-! ## Lossy reading -/

/-- What may follow a lead byte: how many continuation bytes, and the range of the first. -/
def following (lead : UInt8) : Option (Nat × UInt8 × UInt8) :=
  if 0xC2 ≤ lead ∧ lead ≤ 0xDF then some (1, 0x80, 0xBF)
  else if lead = 0xE0 then some (2, 0xA0, 0xBF)
  else if lead = 0xED then some (2, 0x80, 0x9F)
  else if 0xE1 ≤ lead ∧ lead ≤ 0xEF then some (2, 0x80, 0xBF)
  else if lead = 0xF0 then some (3, 0x90, 0xBF)
  else if 0xF1 ≤ lead ∧ lead ≤ 0xF3 then some (3, 0x80, 0xBF)
  else if lead = 0xF4 then some (3, 0x80, 0x8F)
  else none

/-- A byte inside a character, after its lead byte. -/
def isContinuation (b : UInt8) : Bool := 0x80 ≤ b && b ≤ 0xBF

/-- The continuation bytes at the front of `rest` that a lead byte with this shape accepts. -/
def accepted (shape : Nat × UInt8 × UInt8) (rest : Bytes) : Bytes :=
  match rest with
  | [] => []
  | b :: more =>
    if shape.2.1 ≤ b ∧ b ≤ shape.2.2 then
      b :: (more.take (shape.1 - 1)).takeWhile isContinuation
    else []

/-- The code point of a lead byte with its continuation bytes. -/
def codePoint (lead : UInt8) (tail : Bytes) : Nat :=
  tail.foldl (fun n b => n * 64 + b.toNat % 64) (lead.toNat % (64 >>> tail.length))

/-- The character that starts with `lead`, and how many bytes after `lead` it takes. -/
def next (lead : UInt8) (rest : Bytes) : Char × Nat :=
  if lead < 0x80 then (Char.ofNat lead.toNat, 0)
  else match following lead with
    | none => ('\uFFFD', 0)
    | some shape =>
      let tail := accepted shape rest
      if tail.length = shape.1 then (Char.ofNat (codePoint lead tail), tail.length)
      else ('\uFFFD', tail.length)

/-- Appends the characters read from `bs` to `text`. -/
def lossyFrom (text : String) (bs : Bytes) : String :=
  match bs with
  | [] => text
  | lead :: rest =>
    let (c, taken) := next lead rest
    lossyFrom (text.push c) (rest.drop taken)
termination_by bs.length
decreasing_by simp only [List.length_drop, List.length_cons]; omega

/-- The text of any bytes, unreadable runs replaced. -/
def lossy (bs : Bytes) : String := lossyFrom "" bs

end Utf8
end StackMachine
