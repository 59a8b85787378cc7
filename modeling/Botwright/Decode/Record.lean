import Botwright.Decode.Error
import Botwright.Uuid
/-!
# Reading records

A record is an object with named fields or an array with the fields in declaration order. Of
several faults in an object the one under the least key counts, then the first missing field in
declaration order; an array is read from left to right.
-/
namespace Botwright

abbrev Decoded (α : Type) := Except DecodeError α

namespace Decode

def text : Json → Decoded String
  | .string s => .ok s
  | v => .error (.wrongType (.of v) .text)

def boolean : Json → Decoded Bool
  | .bool b => .ok b
  | v => .error (.wrongType (.of v) .boolean)

def word : Json → Decoded UInt32
  | .number (.int n) =>
      if 0 ≤ n ∧ n < Nat.pow 2 32 then .ok (.ofNat n.toNat) else .error (.wordRange n)
  | v => .error (.wrongType (.of v) .word)

def uuid : Json → Decoded Uuid
  | .string s =>
      match Uuid.ofText? s with
      | some u => .ok u
      | none => .error .badUuid
  | v => .error (.wrongType (.of v) .uuid)

def value (v : Json) : Decoded Json := .ok v

def fields : Json → Decoded Json.Fields
  | .object fields => .ok fields
  | v => .error (.wrongType (.of v) .map)

def nullable {α : Type} (read : Json → Decoded α) : Json → Decoded (Option α)
  | .null => .ok none
  | v => (read v).map some

def list {α : Type} (read : Json → Decoded α) : Json → Decoded (List α)
  | .array items => items.mapM read
  | v => .error (.wrongType (.of v) .sequence)

def texts : Json → Decoded (List String) := list text

/-- Whether a value stands alone or inside a tagged value. -/
inductive Framing where
  | plain | tagged
deriving DecidableEq

/-- What stands for nothing: inside a tagged value an empty object does too. -/
def Framing.isNothing : Framing → Json → Bool
  | _, .null => true
  | .tagged, .object [] => true
  | _, _ => false

def constant {α : Type} (framing : Framing) (name : α → String) (all : List α) : Json → Decoded α
  | .string s => named s
  | .object [(s, v)] =>
      match named s with
      | .ok a => if framing.isNothing v then .ok a else .error (.wrongType (.of v) .nothing)
      | .error e => .error e
  | .object _ => .error .notSingleKey
  | v => .error (.wrongType (.of v) .plainVariant)
where
  named (s : String) : Decoded α :=
    match all.find? (name · == s) with
    | some a => .ok a
    | none => .error (.unknownVariant s (all.map name))

/-- Whether a record may do without a field. An optional field may be left out of an object but
not out of an array. -/
inductive Need where
  | required | optional | defaulted
deriving DecidableEq

structure Slot where
  name : String
  need : Need
  found : Decoded Bool

def slot {α : Type} (name : String) (need : Need) (read : Decoded (Option α)) : Slot :=
  ⟨name, need, read.map Option.isSome⟩

def Framing.surplus (framing : Framing) (count size : Nat) : DecodeError :=
  match framing with
  | .plain => .tooMany count
  | .tagged => .tooManyInSequence count size

/-- The fault under the least key. -/
def leastFault : List Slot → Option (String × DecodeError)
  | [] => none
  | s :: rest =>
      match s.found, leastFault rest with
      | .error e, some (key, other) =>
          if Json.keyBefore key s.name then some (key, other) else some (s.name, e)
      | .error e, none => some (s.name, e)
      | .ok _, other => other

def firstMissing : List Slot → Option String
  | [] => none
  | s :: rest =>
      match s.need, s.found with
      | .required, .ok false => some s.name
      | _, _ => firstMissing rest

def checkObject (slots : List Slot) : Decoded Unit :=
  match leastFault slots with
  | some (_, e) => .error e
  | none =>
      match firstMissing slots with
      | some name => .error (.missingField name)
      | none => .ok ()

def checkArrayFrom (record : String) (size : Nat) : Nat → List Slot → Decoded Unit
  | _, [] => .ok ()
  | index, s :: rest =>
      match s.found, s.need with
      | .error e, _ => .error e
      | .ok true, _ | .ok false, .defaulted => checkArrayFrom record size (index + 1) rest
      | .ok false, _ => .error (.tooFew index record size)

def checkRecord (framing : Framing) (record : String) (slots : List Slot) : Json → Decoded Unit
  | .object _ => checkObject slots
  | .array items =>
      match checkArrayFrom record slots.length 0 slots with
      | .error e => .error e
      | .ok () =>
          if slots.length < items.length then
            .error (framing.surplus items.length slots.length)
          else .ok ()
  | v => .error (.wrongType (.of v) (.record record))

def fieldAt? (name : String) (index : Nat) : Json → Option Json
  | .object fields => Json.field? name fields
  | .array items => items[index]?
  | _ => none

def field {α : Type} (v : Json) (name : String) (index : Nat) (read : Json → Decoded α) :
    Decoded (Option α) :=
  match fieldAt? name index v with
  | none => .ok none
  | some found => (read found).map some

def present {α : Type} (name : String) (read : Decoded (Option α)) : Decoded α :=
  match read with
  | .ok (some a) => .ok a
  | .ok none => .error (.missingField name)
  | .error e => .error e

/-- The name of the variant of a tagged value and the value that holds the variant's fields. -/
def variant (type tag : String) (framing : Framing) (known : List String) :
    Json → Decoded (String × Json)
  | .object fields =>
      match Json.field? tag fields with
      | none => .error (.missingField tag)
      | some v => (variantName v).map (·, .object fields)
  | .array [] => .error (.missingField tag)
  | .array (v :: rest) => (variantName v).map (·, .array rest)
  | v => .error (.wrongType (.of v) (.tagged type))
where
  variantName : Json → Decoded String
    | .string s => if s ∈ known then .ok s else .error (.unknownVariant s known)
    | .number (.int n) =>
        if framing = .tagged ∧ 0 ≤ n then
          match known[n.toNat]? with
          | some s => .ok s
          | none => .error (.variantIndex n known.length)
        else .error (.wrongType (.integer n) .variantName)
    | v => .error (.wrongType (.of v) .variantName)

end Decode
end Botwright
