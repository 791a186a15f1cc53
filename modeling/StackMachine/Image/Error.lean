import StackMachine.Decoder

/-!
# Load errors — why an image is refused
-/

namespace StackMachine

inductive LoadError where
  /-- A field could not be read. -/
  | decode (cause : DecodeError)
  /-- The image does not start with the magic bytes. -/
  | badMagic (found : Vector UInt8 3)
  /-- The image has another version. -/
  | unsupportedVersion (found expected : UInt16)
  /-- An operand is wider than a word. -/
  | operandTooWide (index : Nat) (width : UInt8)
  /-- A symbol's name is not UTF-8. -/
  | invalidSymbolName (index : Nat)
  /-- The memory section does not fit in one region. -/
  | memoryTooLarge (length max : Nat)
  /-- Bytes follow the last section. -/
  | trailingBytes (remaining : Nat)
  /-- The image is not marked executable. -/
  | notExecutable
  /-- The image is not marked a library. -/
  | notLibrary
  /-- The image is marked as built with errors. -/
  | containsErrors
  deriving DecidableEq, Repr

namespace LoadError

def message : LoadError → String
  | .decode cause => "truncated image: " ++ cause.message
  | .badMagic found =>
    let bytes := ", ".intercalate (found.toList.map toString)
    s!"image has not the correct file format (magic [{bytes}])"
  | .unsupportedVersion found expected =>
    s!"image version {found} is not supported, expected {expected}"
  | .operandTooWide index width =>
    s!"operand of instruction {index} is {width} bytes wide, at most 8 allowed"
  | .invalidSymbolName index => s!"symbol {index} has a name that is not valid utf-8"
  | .memoryTooLarge length max =>
    s!"memory segment of {length} bytes exceeds the {max} byte limit"
  | .trailingBytes remaining => s!"{remaining} trailing bytes after the memory segment"
  | .notExecutable => "image is not executable"
  | .notLibrary => "image is not a library"
  | .containsErrors => "image was built with errors"

end LoadError

end StackMachine
