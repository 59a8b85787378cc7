import Botwright.Json.Printer
import Botwright.Text.Quoted
/-!
# Why a value does not decode

The causes, and one message for each.
-/
namespace Botwright

inductive Found where
  | null
  | boolean (value : Bool)
  | integer (value : Int)
  | float (value : Binary64)
  | text (value : String)
  | sequence
  | map
deriving DecidableEq, Inhabited

inductive Wanted where
  | text
  | boolean
  | sequence
  | map
  | word
  | nothing
  | uuid
  | record (name : String)
  | tagged (name : String)
  | variantName
  | plainVariant
deriving DecidableEq, Inhabited

inductive DecodeError where
  | wrongType (found : Found) (wanted : Wanted)
  | wordRange (value : Int)
  | variantIndex (value : Int) (count : Nat)
  | notSingleKey
  | unknownVariant (name : String) (known : List String)
  | missingField (name : String)
  | tooFew (count : Nat) (record : String) (size : Nat)
  | tooMany (count : Nat)
  | tooManyInSequence (count size : Nat)
  | noShape (name : String)
  | badUuid
deriving DecidableEq, Inhabited

def Found.of : Json → Found
  | .null => .null
  | .bool b => .boolean b
  | .number (.int n) => .integer n
  | .number (.float x) => .float x
  | .string s => .text s
  | .array _ => .sequence
  | .object _ => .map

namespace DecodeError

def code (text : String) : String := "`" ++ text ++ "`"

def foundPhrase : Found → String
  | .null => "null"
  | .boolean b => "boolean " ++ code (if b then "true" else "false")
  | .integer n => "integer " ++ code (toString n)
  | .float x => "floating point " ++ code (Json.numberText (.float x))
  | .text s => "string " ++ Text.quoted s
  | .sequence => "sequence"
  | .map => "map"

def wantedPhrase : Wanted → String
  | .text => "a string"
  | .boolean => "a boolean"
  | .sequence => "a sequence"
  | .map => "a map"
  | .word => "u32"
  | .nothing => "unit"
  | .uuid => "a formatted UUID string"
  | .record name => "struct " ++ name
  | .tagged name => "internally tagged enum " ++ name
  | .variantName => "variant identifier"
  | .plainVariant => "string or map"

def count (n : Nat) : String := toString n ++ (if n = 1 then " element" else " elements")

def alternatives : List String → String
  | [a] => code a
  | [a, b] => code a ++ " or " ++ code b
  | names => "one of " ++ String.intercalate ", " (names.map code)

def message : DecodeError → String
  | wrongType found wanted =>
      "invalid type: " ++ foundPhrase found ++ ", expected " ++ wantedPhrase wanted
  | wordRange n => "invalid value: integer " ++ code (toString n) ++ ", expected u32"
  | variantIndex n size =>
      "invalid value: integer " ++ code (toString n) ++ ", expected variant index 0 <= i < "
        ++ toString size
  | notSingleKey => "invalid value: map, expected map with a single key"
  | unknownVariant name known =>
      "unknown variant " ++ code name ++ ", expected " ++ alternatives known
  | missingField name => "missing field " ++ code name
  | tooFew n record size =>
      "invalid length " ++ toString n ++ ", expected struct " ++ record ++ " with " ++ count size
  | tooMany n => "invalid length " ++ toString n ++ ", expected fewer elements in array"
  | tooManyInSequence n size =>
      "invalid length " ++ toString n ++ ", expected " ++ count size ++ " in sequence"
  | noShape name => "data did not match any variant of untagged enum " ++ name
  | badUuid => "UUID parsing failed"

end DecodeError
end Botwright
