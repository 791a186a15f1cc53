import StackMachine.Text.Utf8
import StackMachine.Word

/-!
# Symbol — names exported by a library
-/

namespace StackMachine

/-- An exported name and its address inside the module that exports it. -/
structure Symbol where
  name : String
  address : Word
  deriving DecidableEq, Repr, Inhabited

namespace Symbol

/-- The written form: the length of the name in two bytes, the name, the address. A name of more
than 65535 bytes is written in full after the low two bytes of its length. -/
def encode (s : Symbol) : Bytes :=
  let name := Utf8.encode s.name
  Bytes.ofNatLE 2 name.length ++ name ++ Bytes.ofUInt64 s.address

end Symbol

end StackMachine
