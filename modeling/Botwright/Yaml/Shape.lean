import Botwright.Yaml.Anchor
import Botwright.Yaml.Scalar
/-!
# Reading a text by its shape

The same node can stand for different values: a plain `1` is a number where any value may stand,
and a text where a text is wanted. A shape says what is wanted; what is read is a JSON value.
-/
namespace Botwright.Yaml

inductive Shape where
  | value
  | text
  | nullable (shape : Shape)
  | list (item : Shape)
  | record (fields : List (String × Shape))
deriving Inhabited

namespace Node

/-- Collections may be nested this deep. -/
def depthLimit : Nat := 128

/-- Aliases may be followed so often for every unit of a text's weight. -/
def aliasesPerWeight : Nat := 100

abbrev Reading (β : Type) := StateT Nat Option β

def coreTag (name : String) : Option String := some ("tag:yaml.org,2002:" ++ name)

def isLocalTag (tag : Option String) : Bool :=
  (tag.bind (·.toList.head?)) == some '!'

/-- The node without its anchor; an alias is replaced by what it names. -/
def follow (named : List (Nat × Node Nat)) : Node Nat → Reading (Node Nat)
  | .anchored _ node => follow named node
  | .reference n => do
      let left ← get
      match left, named.reverse.find? (·.1 == n) with
      | left + 1, some (_, node) => set left; return node
      | _, _ => failure
  | node => return node

def integer (n : Int) : Option Json :=
  if Json.leastInteger ≤ n ∧ n ≤ Json.greatestInteger then some (.int n) else none

def float (x : Binary64) : Json := if x.isFinite then .number (.float x) else .null

def plainValue (s : String) : Option Json :=
  match resolve s with
  | .null => some .null
  | .bool b => some (.bool b)
  | .int n => integer n
  | .float x => some (float x)
  | .text => some (.string s)

/-- The value of a scalar where any value may stand. A core tag decides its type. -/
def scalarValue (tag : Option String) (s : String) (plain : Bool) : Option Json :=
  if isLocalTag tag then none
  else if tag = coreTag "bool" then (bool? s).map .bool
  else if tag = coreTag "int" then (int? s.toList).bind integer
  else if tag = coreTag "float" then (float? s).map float
  else if tag = coreTag "null" then if isNullWord s then some .null else none
  else if tag = none ∧ plain then plainValue s
  else some (.string s)

def isAbsent : Node Nat → Option Bool
  | .scalar tag s true =>
      if tag = none then some (s.isEmpty || isNullWord s)
      else if tag = coreTag "null" then if isNullWord s then some true else none
      else some false
  | _ => some false

def isBlank : Node Nat → Bool
  | .scalar _ s plain => plain && s.isEmpty
  | _ => false

variable (named : List (Nat × Node Nat))

def readKey (n : Node Nat) : Reading String := do
  match ← follow named n with
  | .scalar _ s _ => return s
  | _ => failure

/-- The fields of a record. Other keys are passed over with their values, but a field may not be
repeated. -/
def readFields (inside : Shape → Node Nat → Reading Json) (fields : List (String × Shape)) :
    List String → List (Node Nat × Node Nat) → Reading Json.Fields
  | _, [] => return []
  | seen, (k, v) :: rest => do
      let key ← readKey named k
      match fields.find? (·.1 == key) with
      | none => readFields inside fields seen rest
      | some (_, shape) =>
          if seen.contains key then failure
          else do
            let value ← inside shape v
            return (key, value) :: (← readFields inside fields (key :: seen) rest)

def readContent (inside : Shape → Node Nat → Reading Json) : Shape → Node Nat → Reading Json
  | .nullable shape, n => do
      if ← (isAbsent n : Option Bool) then return .null else readContent inside shape n
  | .text, .scalar _ s _ => return .string s
  | .value, .scalar tag s plain => do (scalarValue tag s plain : Option Json)
  | .value, .sequence tag items => do
      if isLocalTag tag then failure
      return .array (← items.mapM (inside .value))
  | .value, .mapping tag entries => do
      if isLocalTag tag then failure
      return Json.ofFields (← entries.mapM fun (k, v) => do
        let key ← readKey named k
        return (key, ← inside .value v))
  | .list item, .sequence _ items => return .array (← items.mapM (inside item))
  | .list _, n => if isBlank n then return .array [] else failure
  | .record fields, .mapping _ entries =>
      return Json.ofFields (← readFields named inside fields [] entries)
  | .record _, n => if isBlank n then return .object [] else failure
  | _, _ => failure

def isCollection : Node Nat → Bool
  | .sequence .. | .mapping .. => true
  | _ => false

/-- Reads a node with collections nested at most `depth` deep. -/
def read : Nat → Shape → Node Nat → Reading Json
  | 0, shape, n => do
      let n ← follow named n
      if isCollection n then failure else readContent named (fun _ _ => failure) shape n
  | depth + 1, shape, n => do readContent named (read depth) shape (← follow named n)

end Node

def Shape.read? (shape : Shape) (text : String) : Option Json := do
  let (n, _) ← Node.number (← Node.ofText? text) []
  let reading := Node.read n.anchors Node.depthLimit shape n
  (reading.run (Node.aliasesPerWeight * n.weight)).map (·.1)

def parse? (text : String) : Option Json := Shape.value.read? text

end Botwright.Yaml
