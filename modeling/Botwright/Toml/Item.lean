import Botwright.Toml.Scalar
/-!
# Items and tables

A table grows by its fields and by the headers of the tables inside it. No key may be given twice,
and a table that a header or braces completed takes no more fields from outside.
-/
namespace Botwright.Toml

structure Key where
  text : String
  span : Span
deriving DecidableEq, Inhabited

/-- How a table came to be. -/
inductive Origin where
  /-- By a header of its own. -/
  | header
  /-- By the header of a table inside it. -/
  | implied
  /-- By the dotted key of a field inside it. -/
  | dotted
deriving DecidableEq, Inhabited

inductive Item where
  | scalar (value : Scalar) (span : Span)
  | array (items : List Item) (span : Span)
  | braces (fields : List (Key × Item)) (span : Span)
  | table (origin : Origin) (span : Option Span) (fields : List (Key × Item))
  /-- Tables of one doubly bracketed header; fields are added to the latest. -/
  | tables (span : Span) (earlier : List (List (Key × Item))) (latest : List (Key × Item))
deriving Inhabited

abbrev Fields := List (Key × Item)

def Item.span? : Item → Option Span
  | .scalar _ span | .array _ span | .braces _ span | .tables span _ _ => some span
  | .table _ span _ => span

namespace Fields

def find? (name : String) (fields : Fields) : Option Item :=
  (List.find? (fun f => f.1.text == name) fields).map (·.2)

def replace (name : String) (item : Item) (fields : Fields) : Fields :=
  fields.map fun (k, old) => if k.text = name then (k, item) else (k, old)

def erase (name : String) (fields : Fields) : Fields := fields.filter (·.1.text != name)

/-- Adds a field under a dotted key: the tables on its path are made or were made by dotted keys. -/
def insert (key : Key) (item : Item) : List Key → Fields → Option Fields
  | [], fields => if (fields.find? key.text).isSome then none else some (fields ++ [(key, item)])
  | k :: path, fields =>
      match fields.find? k.text with
      | none =>
          (insert key item path []).map fun inner => fields ++ [(k, .table .dotted none inner)]
      | some (.table origin span inner) =>
          if origin = .header ∨ (path.isEmpty ∧ origin ≠ .dotted) then none
          else (insert key item path inner).map fun inner =>
            fields.replace k.text (.table origin span inner)
      | some (.tables span earlier latest) =>
          if path.isEmpty then none
          else (insert key item path latest).map fun latest =>
            fields.replace k.text (.tables span earlier latest)
      | some _ => none

def within (change : Fields → Option Fields) : List Key → Fields → Option Fields
  | [], fields => change fields
  | k :: path, fields =>
      match fields.find? k.text with
      | none =>
          (within change path []).map fun inner => fields ++ [(k, .table .implied none inner)]
      | some (.table origin span inner) =>
          (within change path inner).map fun inner =>
            fields.replace k.text (.table origin span inner)
      | some (.tables span earlier latest) =>
          (within change path latest).map fun latest =>
            fields.replace k.text (.tables span earlier latest)
      | some _ => none

end Fields

structure Entry where
  path : List Key
  key : Key
  item : Item
deriving Inhabited

def Fields.insertAll (entries : List Entry) (fields : Fields) : Option Fields :=
  entries.foldlM (fun fields e => fields.insert e.key e.item e.path) fields

structure Section where
  /-- Whether the header is doubly bracketed. -/
  repeated : Bool
  path : List Key
  key : Key
  header : Span
  entries : List Entry
deriving Inhabited

namespace Section

def span (s : Section) : Span :=
  match s.entries.getLast?.bind (·.item.span?) with
  | none => s.header
  | some last => ⟨s.header.start, last.stop⟩

/-- Adds a section to the table that holds it. A header may complete a table that was only
implied, which then counts from here. -/
def addTo (s : Section) (fields : Fields) : Option Fields :=
  if s.repeated then
    match fields.find? s.key.text with
    | none =>
        (Fields.insertAll s.entries []).map fun latest =>
          fields ++ [(s.key, .tables s.span [] latest)]
    | some (.tables span earlier latest) =>
        (Fields.insertAll s.entries []).map fun next =>
          fields.replace s.key.text
            (.tables ⟨span.start, s.span.stop⟩ (earlier ++ [latest]) next)
    | some _ => none
  else
    let before := match fields.find? s.key.text with
      | none => some []
      | some (.table .implied _ inner) => some inner
      | some _ => none
    (before.bind (Fields.insertAll s.entries)).map fun inner =>
      fields.erase s.key.text ++ [(s.key, .table .header (some s.span) inner)]

end Section

def assemble (entries : List Entry) (sections : List Section) : Option Fields := do
  let fields ← Fields.insertAll entries []
  sections.foldlM (fun fields s => Fields.within s.addTo s.path fields) fields

end Botwright.Toml
