import Botwright.Decimal.Shortest
/-!
# JSON values

Integers and floating-point numbers are told apart. An object is a list of fields; readers build
objects with distinct keys in byte order of the key, and writers keep the order of the list.
-/
namespace Botwright

inductive Number where
  | int (value : Int)
  | float (value : Binary64)
deriving DecidableEq, Inhabited

inductive Json where
  | null
  | bool (value : Bool)
  | number (value : Number)
  | string (value : String)
  | array (items : List Json)
  | object (fields : List (String × Json))
deriving Inhabited

namespace Json

abbrev Fields := List (String × Json)

def int (value : Int) : Json := .number (.int value)

def nat (value : Nat) : Json := .number (.int value)

def texts (values : List String) : Json := .array (values.map .string)

def field? (key : String) : Fields → Option Json
  | [] => none
  | (k, v) :: rest => if k = key then some v else field? key rest

def get? (key : String) : Json → Option Json
  | .object fields => field? key fields
  | _ => none

def text? : Json → Option String
  | .string s => some s
  | _ => none

def isNull : Json → Bool
  | .null => true
  | _ => false

mutual

/-- Structural equality; two integers differ from two floats of the same value. -/
def same : Json → Json → Bool
  | .null, .null => true
  | .bool a, .bool b => a == b
  | .number a, .number b => a == b
  | .string a, .string b => a == b
  | .array a, .array b => sameItems a b
  | .object a, .object b => sameFields a b
  | _, _ => false

def sameItems : List Json → List Json → Bool
  | [], [] => true
  | a :: as, b :: bs => same a b && sameItems as bs
  | _, _ => false

def sameFields : List (String × Json) → List (String × Json) → Bool
  | [], [] => true
  | (k, a) :: as, (l, b) :: bs => k == l && same a b && sameFields as bs
  | _, _ => false

end

instance : BEq Json := ⟨same⟩

/-- Byte order of keys, which is the order of their code points. -/
def keyBefore (a b : String) : Bool := a < b

/-- Adds a field in key order; a field of the same key is replaced. -/
def insertField (key : String) (value : Json) : Fields → Fields
  | [] => [(key, value)]
  | (k, v) :: rest =>
      if key = k then (key, value) :: rest
      else if keyBefore key k then (key, value) :: (k, v) :: rest
      else (k, v) :: insertField key value rest

/-- The object of the given fields in key order; of a repeated key the last value counts. -/
def ofFields (fields : Fields) : Json :=
  .object (fields.foldl (fun sorted (k, v) => insertField k v sorted) [])

def presentFields (fields : List (String × Option Json)) : Fields :=
  fields.filterMap fun (k, v) => v.map (k, ·)

def leastInteger : Int := -(Nat.pow 2 63 : Nat)
def greatestInteger : Int := (Nat.pow 2 64 - 1 : Nat)

@[simp, grind =] theorem field?_cons (key k : String) (v : Json) (rest : Fields) :
    field? key ((k, v) :: rest) = if k = key then some v else field? key rest := rfl

@[simp, grind =] theorem field?_insertField (key added : String) (value : Json) (fields : Fields) :
    field? key (insertField added value fields) =
      if added = key then some value else field? key fields := by
  induction fields with
  | nil => simp [insertField, field?]
  | cons head rest ih => grind [insertField]

end Json
end Botwright
