import StackMachine.Text.Layout
import StackMachine.Text.Unprintable

/-!
# Quoted — a text as a literal

A quoted text stands between double quotes. The quote, the backslash, the tab, the line feed, the
carriage return and the null character have escapes of their own; any other character without a
visible form is written by its code point in hexadecimal.
-/

namespace StackMachine
namespace Text

def escaped (c : Char) : String :=
  if c = '\x00' then "\\0"
  else if c = '\t' then "\\t"
  else if c = '\n' then "\\n"
  else if c = '\r' then "\\r"
  else if c = '"' then "\\\""
  else if c = '\\' then "\\\\"
  else if c.toNat < 0x20 || c.toNat == 0x7F || isUnprintable c then
    "\\u\x7b" ++ hexDigits 1 c.toNat ++ "\x7d"
  else c.toString

def quoted (s : String) : String := "\"" ++ String.join (s.toList.map escaped) ++ "\""

end Text
end StackMachine
