import Botwright.Schema.Rule
import Botwright.Failure
/-!
# Well-formed schemas

A document is taken as a schema if every keyword has a value of the right shape and every
reference that is used leads to a schema of the document.
-/
namespace Botwright.Schema

/-- The shape that a keyword asks of its value. -/
inductive Shape where
  | schema | schemaMap | schemaList | text | flag | number | positive | natural | texts | textLists
  | values | typeNames | map
deriving DecidableEq

def keywordShapes : List (String × Shape) :=
  [("$id", .text), ("$schema", .text), ("$ref", .text), ("$anchor", .text), ("$comment", .text),
    ("$dynamicRef", .text), ("$dynamicAnchor", .text), ("$vocabulary", .map),
    ("$defs", .schemaMap), ("definitions", .schemaMap), ("properties", .schemaMap),
    ("patternProperties", .schemaMap), ("dependentSchemas", .schemaMap), ("items", .schema),
    ("contains", .schema), ("additionalProperties", .schema), ("propertyNames", .schema),
    ("if", .schema), ("then", .schema), ("else", .schema), ("not", .schema),
    ("unevaluatedItems", .schema), ("unevaluatedProperties", .schema), ("contentSchema", .schema),
    ("prefixItems", .schemaList), ("allOf", .schemaList), ("anyOf", .schemaList),
    ("oneOf", .schemaList), ("type", .typeNames), ("enum", .values), ("examples", .values),
    ("multipleOf", .positive), ("maximum", .number), ("exclusiveMaximum", .number),
    ("minimum", .number), ("exclusiveMinimum", .number), ("maxLength", .natural),
    ("minLength", .natural), ("maxItems", .natural), ("minItems", .natural),
    ("maxContains", .natural), ("minContains", .natural), ("maxProperties", .natural),
    ("minProperties", .natural), ("pattern", .text), ("format", .text), ("title", .text),
    ("description", .text), ("contentEncoding", .text), ("contentMediaType", .text),
    ("uniqueItems", .flag), ("deprecated", .flag), ("readOnly", .flag), ("writeOnly", .flag),
    ("required", .texts), ("dependentRequired", .textLists)]

def hasRepeats : List String → Bool
  | [] => false
  | a :: rest => rest.contains a || hasRepeats rest

def areTexts : Json → Bool
  | .array items => items.all (fun v => v.text?.isSome) && !hasRepeats (items.filterMap Json.text?)
  | _ => false

def Shape.admits : Shape → Json → Bool
  | text, .string _ => true
  | flag, .bool _ => true
  | number, .number _ => true
  | positive, .number n => lessThan (.int 0) n
  | natural, v => (limit? v).isSome
  | texts, v => areTexts v
  | textLists, .object fields => fields.all (areTexts ·.2)
  | values, .array _ => true
  | Shape.typeNames, .string s => Schema.typeNames.contains s
  | Shape.typeNames, .array items =>
      !items.isEmpty && areTexts (.array items) &&
        (items.filterMap Json.text?).all (Schema.typeNames.contains ·)
  | map, .object _ => true
  | _, _ => false

mutual

def fits : Shape → Json → Bool
  | .schema, .bool _ => true
  | .schema, .object fields => keywordsFit fields
  | .schemaMap, .object fields => membersFit fields
  | .schemaList, .array row => !row.isEmpty && itemsFit row
  | shape, v => shape.admits v

def keywordsFit : List (String × Json) → Bool
  | [] => true
  | (k, v) :: rest =>
      (match keywordShapes.find? (·.1 == k) with
        | some (_, shape) => fits shape v
        | none => true) && keywordsFit rest

def membersFit : List (String × Json) → Bool
  | [] => true
  | (_, v) :: rest => fits .schema v && membersFit rest

def itemsFit : List Json → Bool
  | [] => true
  | v :: rest => fits .schema v && itemsFit rest

end

mutual

def references : Json → List String
  | .object fields => keywordReferences fields
  | .array row => itemReferences row
  | _ => []

def keywordReferences : List (String × Json) → List String
  | [] => []
  | (k, v) :: rest =>
      (if k = "$ref" then v.text?.toList
        else if k = "$defs" ∨ k = "definitions" ∨ k = "enum" ∨ k = "const" then []
        else if k = "properties" ∨ k = "patternProperties" then memberReferences v
        else references v) ++ keywordReferences rest

def memberReferences : Json → List String
  | .object fields => valueReferences fields
  | _ => []

def valueReferences : List (String × Json) → List String
  | [] => []
  | (_, v) :: rest => references v ++ valueReferences rest

def itemReferences : List Json → List String
  | [] => []
  | v :: rest => references v ++ itemReferences rest

end

def isSchema : Json → Bool
  | .bool _ | .object _ => true
  | _ => false

/-- Whether all references that are used from `pending` on lead to schemas; `seen` are done. -/
def resolves (root : Json) : Nat → List String → List String → Bool
  | 0, _, pending => pending.isEmpty
  | _, _, [] => true
  | limit + 1, seen, reference :: pending =>
      if seen.contains reference then resolves root limit seen pending
      else match target? root reference with
        | some schema =>
            isSchema schema &&
              resolves root limit (reference :: seen) (references schema ++ pending)
        | none => false

def isWellFormed (document : Json) : Bool :=
  fits .schema document && resolves document 10000 [] (references document)

def checkDocument (document : Json) : Except Failure Unit :=
  if isWellFormed document then .ok ()
  else .error (.configuration "invalid JSON Schema document")

end Botwright.Schema
