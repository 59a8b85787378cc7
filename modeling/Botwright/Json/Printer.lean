import Botwright.Json.Basic
/-!
# Compact JSON text

No spaces, fields in the order of the value. Strings escape quotes, backslashes and control
characters below the space.
-/
namespace Botwright.Json

/-- Scientific notation writes the plus sign of a positive exponent. -/
def decimalStyle : DecimalStyle := ⟨true⟩

def numberText : Number → String
  | .int n => toString n
  | .float x => if x.isFinite then x.shortest.write decimalStyle else "null"

def escapeChar (c : Char) : String :=
  if c = '"' then "\\\""
  else if c = '\\' then "\\\\"
  else if c = '\n' then "\\n"
  else if c = '\r' then "\\r"
  else if c = '\t' then "\\t"
  else if c.toNat = 8 then "\\b"
  else if c.toNat = 12 then "\\f"
  else if c.toNat < 32 then "\\u" ++ Text.hexadecimal c.toNat 4
  else c.toString

def quote (s : String) : String := "\"" ++ String.join (s.toList.map escapeChar) ++ "\""

mutual

def print : Json → String
  | .null => "null"
  | .bool b => if b then "true" else "false"
  | .number n => numberText n
  | .string s => quote s
  | .array items => "[" ++ printItems items ++ "]"
  | .object fields => "\x7b" ++ printFields fields ++ "\x7d"

def printItems : List Json → String
  | [] => ""
  | [v] => print v
  | v :: rest => print v ++ "," ++ printItems rest

def printFields : List (String × Json) → String
  | [] => ""
  | [(k, v)] => quote k ++ ":" ++ print v
  | (k, v) :: rest => quote k ++ ":" ++ print v ++ "," ++ printFields rest

end

end Botwright.Json
