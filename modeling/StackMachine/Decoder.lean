import StackMachine.Bytes

/-!
# Decoder — reading values off the front of a byte string

A `Decoder α` takes a value off the front of its input and leaves the rest. When it fails, the
input stands after the last field that was read in full. All numbers are little-endian and of
fixed width; there are no implicit length fields.
-/

namespace StackMachine

/-- Why bytes could not be decoded. -/
inductive DecodeError where
  /-- The input ended early. -/
  | unexpectedEnd (needed available : Nat)
  /-- The bytes are no form of the expected value. -/
  | invalidValue
  /-- A count is too large for the address space of the host. -/
  | lengthOverflow (length : UInt64)
  deriving DecidableEq, Repr

def DecodeError.message : DecodeError → String
  | .unexpectedEnd needed available =>
    s!"unexpected end of input: needed {needed} bytes, {available} available"
  | .invalidValue => "invalid value"
  | .lengthOverflow length => s!"length {length} overflows the host address width"

/-- A reader of values at the front of a byte string. -/
abbrev Decoder := EStateM DecodeError Bytes

namespace Decoder

/-- Exactly `n` bytes. A shorter input is left untouched. -/
def take (n : Nat) : Decoder Bytes := fun input =>
  let front := input.take n
  if front.length = n then .ok front (input.drop n)
  else .error (.unexpectedEnd n input.length) input

def natLE (width : Nat) : Decoder Nat := do return (← take width).toNatLE

def byte : Decoder UInt8 := do return UInt8.ofNat (← natLE 1)

def uint16 : Decoder UInt16 := do return UInt16.ofNat (← natLE 2)

def uint32 : Decoder UInt32 := do return UInt32.ofNat (← natLE 4)

def uint64 : Decoder UInt64 := do return UInt64.ofNat (← natLE 8)

def int64 : Decoder Int64 := do return (← uint64).toInt64

def block (n : Nat) : Decoder (Vector UInt8 n) := fun input =>
  let front := input.take n
  if h : front.length = n then .ok ⟨front.toArray, by simpa using h⟩ (input.drop n)
  else .error (.unexpectedEnd n input.length) input

/-- Number of byte positions that the host can address. -/
def addressSpace : Nat := UInt64.size

/-- A count as a length in memory. -/
def length (count : UInt64) : Decoder Nat :=
  if count.toNat < addressSpace then pure count.toNat else throw (.lengthOverflow count)

/-- Decodes a byte string that must hold one value and nothing after it. -/
def whole (d : Decoder α) (input : Bytes) : Except DecodeError α :=
  match d input with
  | .ok a [] => .ok a
  | .ok _ (_ :: _) => .error .invalidValue
  | .error e _ => .error e

end Decoder

end StackMachine
