import Botwright.Json.Pointer
import Botwright.Json.Printer
/-!
# Rules of a JSON schema

A schema is read as the list of its rules, in byte order of the keywords; a reference stands for
the rules of its target. The rules here are those about the shape and size of a value, its members
and the values that it may take.
-/
namespace Botwright.Schema

def ratio : Number → Int × Nat
  | .int n => (n, 1)
  | .float x =>
      let (num, den) := x.ratio
      (if x.negative then -num else num, den)

def lessThan (a b : Number) : Bool :=
  let (m, d) := ratio a
  let (n, e) := ratio b
  decide (m * e < n * d)

def sameValue (a b : Number) : Bool := !lessThan a b && !lessThan b a

def isIntegral (n : Number) : Bool :=
  let (m, d) := ratio n
  m % d == 0

mutual

/-- Equality of values; numbers are compared by value. -/
def equivalent : Json → Json → Bool
  | .null, .null => true
  | .bool a, .bool b => a == b
  | .number a, .number b => sameValue a b
  | .string a, .string b => a == b
  | .array a, .array b => equivalentItems a b
  | .object a, .object b => equivalentFields a b
  | _, _ => false

def equivalentItems : List Json → List Json → Bool
  | [], [] => true
  | a :: as, b :: bs => equivalent a b && equivalentItems as bs
  | _, _ => false

def equivalentFields : List (String × Json) → List (String × Json) → Bool
  | [], [] => true
  | (k, a) :: as, (l, b) :: bs => k == l && equivalent a b && equivalentFields as bs
  | _, _ => false

end

def typeNames : List String :=
  ["array", "boolean", "integer", "null", "number", "object", "string"]

def hasType (name : String) : Json → Bool
  | .null => name == "null"
  | .bool _ => name == "boolean"
  | .number n => name == "number" || (name == "integer" && isIntegral n)
  | .string _ => name == "string"
  | .array _ => name == "array"
  | .object _ => name == "object"

inductive Rule where
  | never
  | types (names : List String)
  | required (keys : List String)
  | minLength (limit : Nat)
  | maxLength (limit : Nat)
  | minItems (limit : Nat)
  | maxItems (limit : Nat)
  | minimum (limit : Number)
  | maximum (limit : Number)
  | oneOf (values : List Json)
  | constant (value : Json)
  /-- Named members follow their schemas. -/
  | properties (schemas : Json.Fields)
  /-- Members without a schema of their own follow another schema; the rest as for properties. -/
  | closed (schemas : Json.Fields) (others : Json)
  | items (schema : Json)
deriving Inhabited

def limit? : Json → Option Nat
  | .number n =>
      let (m, d) := ratio n
      if 0 ≤ m ∧ m % d = 0 then some (m / d).toNat else none
  | _ => none

def strings : Json → List String
  | .array items => items.filterMap Json.text?
  | .string s => [s]
  | _ => []

def number? : Json → Option Number
  | .number n => some n
  | _ => none

def objectFields : Json → Json.Fields
  | .object fields => fields
  | _ => []

/-- The rule of a keyword, if it has one. Properties beside a schema for other members are left to
that rule. -/
def ruleOf? (schema : Json.Fields) (keyword : String) (v : Json) : Option Rule :=
  if keyword = "type" then some (.types (strings v))
  else if keyword = "required" then some (.required (strings v))
  else if keyword = "minLength" then (limit? v).map .minLength
  else if keyword = "maxLength" then (limit? v).map .maxLength
  else if keyword = "minItems" then (limit? v).map .minItems
  else if keyword = "maxItems" then (limit? v).map .maxItems
  else if keyword = "minimum" then (number? v).map .minimum
  else if keyword = "maximum" then (number? v).map .maximum
  else if keyword = "enum" then match v with
    | .array values => some (.oneOf values)
    | _ => none
  else if keyword = "const" then some (.constant v)
  else if keyword = "items" then some (.items v)
  else if keyword = "additionalProperties" then match v with
    | .bool true => none
    | v => some (.closed (((Json.field? "properties" schema).map objectFields).getD []) v)
  else if keyword = "properties" then
    match Json.field? "additionalProperties" schema with
    | some (.bool false) | some (.object _) => none
    | _ => some (.properties (objectFields v))
  else none

def target? (root : Json) (reference : String) : Option Json :=
  match reference.toList with
  | '#' :: rest => (Json.pointer? (String.ofList rest)).bind fun p => Json.resolve? p root
  | _ => none

/-- How many references in a row are followed. -/
def referenceLimit : Nat := 100

def rulesWithin (root : Json) : Nat → Json → List Rule
  | 0, _ => []
  | limit + 1, .object fields =>
      fields.flatMap fun (keyword, v) =>
        if keyword = "$ref" then
          match v.text?.bind (target? root) with
          | some schema => rulesWithin root limit schema
          | none => []
        else (ruleOf? fields keyword v).toList
  | _, .bool false => [.never]
  | _, _ => []

def rules (root schema : Json) : List Rule := rulesWithin root referenceLimit schema

end Botwright.Schema
