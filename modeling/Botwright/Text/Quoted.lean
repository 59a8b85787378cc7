import Botwright.Text.Numeral
import Botwright.Text.Hidden
/-!
# Quoted text in messages

A text in double quotes in which a reader of the message sees every character: quotes, backslashes,
controls and characters without a visible form are escaped.
-/
namespace Botwright.Text

def visibleChar (c : Char) : String :=
  if c = '"' then "\\\""
  else if c = '\\' then "\\\\"
  else if c = '\n' then "\\n"
  else if c = '\r' then "\\r"
  else if c = '\t' then "\\t"
  else if c.toNat = 0 then "\\0"
  else if c.toNat < 32 ∨ c.toNat = 127 ∨ (128 ≤ c.toNat ∧ isHidden c) then
    "\\u\x7b" ++ shortHexadecimal c.toNat ++ "\x7d"
  else c.toString

def quoted (s : String) : String := "\"" ++ String.join (s.toList.map visibleChar) ++ "\""

end Botwright.Text
