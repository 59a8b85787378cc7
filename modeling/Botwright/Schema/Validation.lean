import Botwright.Schema.Rule
import Botwright.Failure
import Botwright.Journal
/-!
# Validation

Every rule that a value breaks is reported once, with the place of the value. Members are visited
in the order of the schema, items in their own order.
-/
namespace Botwright.Schema

structure Violation where
  place : Json.Pointer
  message : String
deriving DecidableEq, Inhabited

namespace Violation

/-- The pointer to the value, a slash for the whole document. -/
def path (v : Violation) : String :=
  let text := Json.pointerText v.place
  if text.isEmpty then "/" else text

def text (v : Violation) : String := v.path ++ ": " ++ v.message

end Violation

def plural (n : Nat) (one many : String) : String :=
  toString n ++ " " ++ (if n = 1 then one else many)

def quotedNames (names : List String) : String :=
  String.intercalate ", " (names.map fun n => "\"" ++ n ++ "\"")

def typeMessage (v : Json) (names : List String) : String :=
  match names with
  | [name] => v.print ++ " is not of type \"" ++ name ++ "\""
  | names =>
      v.print ++ " is not of types " ++ quotedNames (typeNames.filter (names.contains ·))

def unexpectedMessage (keys : List String) : String :=
  let names := String.intercalate ", " (keys.map fun k => "'" ++ k ++ "'")
  "Additional properties are not allowed (" ++ names ++
    (if keys.length = 1 then " was" else " were") ++ " unexpected)"

def Rule.messages (v : Json) : Rule → List String
  | never => ["False schema does not allow " ++ v.print]
  | types names => if names.any (hasType · v) then [] else [typeMessage v names]
  | required keys =>
      match v with
      | .object fields =>
          (keys.filter fun k => (Json.field? k fields).isNone).map fun k =>
            "\"" ++ k ++ "\" is a required property"
      | _ => []
  | minLength limit =>
      match v with
      | .string s =>
          if s.length < limit then
            [v.print ++ " is shorter than " ++ plural limit "character" "characters"]
          else []
      | _ => []
  | maxLength limit =>
      match v with
      | .string s =>
          if limit < s.length then
            [v.print ++ " is longer than " ++ plural limit "character" "characters"]
          else []
      | _ => []
  | minItems limit =>
      match v with
      | .array row =>
          if row.length < limit then
            [v.print ++ " has less than " ++ plural limit "item" "items"]
          else []
      | _ => []
  | maxItems limit =>
      match v with
      | .array row =>
          if limit < row.length then
            [v.print ++ " has more than " ++ plural limit "item" "items"]
          else []
      | _ => []
  | minimum limit =>
      match v with
      | .number n =>
          if lessThan n limit then
            [v.print ++ " is less than the minimum of " ++ Json.numberText limit]
          else []
      | _ => []
  | maximum limit =>
      match v with
      | .number n =>
          if lessThan limit n then
            [v.print ++ " is greater than the maximum of " ++ Json.numberText limit]
          else []
      | _ => []
  | oneOf values =>
      if values.any (equivalent v) then [] else
        [v.print ++ " is not one of " ++ (Json.array values).print]
  | constant value => if equivalent v value then [] else [value.print ++ " was expected"]
  | closed [] (.bool false) =>
      match v with
      | .object ((_, first) :: _) => ["False schema does not allow " ++ first.print]
      | _ => []
  | properties _ | closed .. | items _ => []

/-- The message about members that a closed rule has no schema for, after all other messages. -/
def Rule.lateMessages (v : Json) : Rule → List String
  | closed (s :: schemas) (.bool false) =>
      match v with
      | .object fields =>
          match (fields.map (·.1)).filter fun k => (Json.field? k (s :: schemas)).isNone with
          | [] => []
          | keys => [unexpectedMessage keys]
      | _ => []
  | _ => []

def Rule.memberSchema? (key : String) : Rule → Option Json
  | closed [] (.bool false) => none
  | closed schemas (.bool false) => Json.field? key schemas
  | closed schemas others => some ((Json.field? key schemas).getD others)
  | _ => none

mutual

/-- The violations of a schema of the document `root` by the value at `place`. -/
def check (root schema : Json) (place : Json.Pointer) : Json → List Violation
  | .object fields =>
      (rules root schema).flatMap fun rule =>
        (rule.messages (.object fields)).map (⟨place, ·⟩) ++
          (match rule with
            | .properties schemas =>
                schemas.flatMap fun (key, sub) => checkField root key sub place fields
            | rule => checkMembers root rule place fields) ++
          (rule.lateMessages (.object fields)).map (⟨place, ·⟩)
  | .array row =>
      (rules root schema).flatMap fun rule =>
        (rule.messages (.array row)).map (⟨place, ·⟩) ++
          match rule with
          | .items sub => checkItems root sub place 0 row
          | _ => []
  | v => (rules root schema).flatMap fun rule => (rule.messages v).map (⟨place, ·⟩)

def checkField (root : Json) (key : String) (schema : Json) (place : Json.Pointer) :
    List (String × Json) → List Violation
  | [] => []
  | (k, v) :: rest =>
      if k = key then check root schema (place ++ [key]) v
      else checkField root key schema place rest

def checkMembers (root : Json) (rule : Rule) (place : Json.Pointer) :
    List (String × Json) → List Violation
  | [] => []
  | (k, v) :: rest =>
      (match rule.memberSchema? k with
        | some schema => check root schema (place ++ [k]) v
        | none => []) ++ checkMembers root rule place rest

def checkItems (root schema : Json) (place : Json.Pointer) : Nat → List Json → List Violation
  | _, [] => []
  | index, v :: rest =>
      check root schema (place ++ [toString index]) v ++
        checkItems root schema place (index + 1) rest

end

/-- All violations of a schema document by a value. -/
def validate (schema v : Json) : List Violation := check schema schema [] v

def validationEvents (violations : List Violation) : List LogEvent :=
  violations.map (fun v => ⟨.warn, "spec violates schema",
    [("path", .text v.path), ("error", .text v.message)]⟩) ++
  [⟨.debug, "spec validated", [("violations", .number violations.length)]⟩]

def requireValid (violations : List Violation) : Except Failure Unit :=
  if violations.isEmpty then .ok ()
  else .error (.schemaViolation (String.intercalate "; " (violations.map Violation.text)))

end Botwright.Schema
