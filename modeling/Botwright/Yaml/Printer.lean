import Botwright.Json.Printer
import Botwright.Yaml.Style
/-!
# YAML documents

Block style with an indentation of two; a list under a key is not indented further, and a
container inside a list begins on the line of its dash. A key that is long or has several lines is
written with a question mark.
-/
namespace Botwright.Yaml

def decimalStyle : DecimalStyle := ⟨false⟩

def floatText (x : Binary64) : String :=
  if x.isFinite then x.shortest.write decimalStyle
  else if x.fractionField ≠ 0 then ".nan"
  else if x.negative then "-.inf"
  else ".inf"

def leaf (indent : Nat) : Json → List Char
  | .null => "null\n".toList
  | .bool b => (if b then "true\n" else "false\n").toList
  | .number (.int n) => (toString n).toList ++ ['\n']
  | .number (.float x) => (floatText x).toList ++ ['\n']
  | .string s => write (indent + 2) s ++ if endsLine s then [] else ['\n']
  | .array _ => "[]\n".toList
  | .object _ => "\x7b\x7d\n".toList

/-- A key that fits in front of its colon. -/
def isSimpleKey (key : String) : Bool := !key.toList.any isBreak && key.utf8ByteSize ≤ 128

mutual

/-- The members of a mapping; `lead` stands in front of the first. -/
def entries (indent : Nat) (lead : List Char) : List (String × Json) → List Char
  | [] => []
  | (key, v) :: rest =>
      lead ++
        (if isSimpleKey key then write (indent + 2) key ++ ':' :: afterKey indent v
          else '?' :: ' ' :: leaf indent (.string key) ++ spaces indent ++
            ':' :: afterMark indent v) ++
        entries indent (spaces indent) rest

def items (indent : Nat) (lead : List Char) : List Json → List Char
  | [] => []
  | v :: rest => lead ++ '-' :: afterMark indent v ++ items indent (spaces indent) rest

/-- A value on the line of a dash or of the colon of a long key. -/
def afterMark (indent : Nat) : Json → List Char
  | .array (v :: rest) => ' ' :: items (indent + 2) [] (v :: rest)
  | .object (f :: rest) => ' ' :: entries (indent + 2) [] (f :: rest)
  | v => ' ' :: leaf indent v

def afterKey (indent : Nat) : Json → List Char
  | .array (v :: rest) => '\n' :: items indent (spaces indent) (v :: rest)
  | .object (f :: rest) => '\n' :: entries (indent + 2) (spaces (indent + 2)) (f :: rest)
  | v => ' ' :: leaf indent v

end

def print : Json → String
  | .array (v :: rest) => String.ofList (items 0 [] (v :: rest))
  | .object (f :: rest) => String.ofList (entries 0 [] (f :: rest))
  | v => String.ofList (leaf 0 v)

end Botwright.Yaml
