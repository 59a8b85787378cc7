import Botwright.Toml.Item
/-!
# Reading documents

A document is a list of lines: fields, headers and comments.
-/
namespace Botwright.Toml

/-- Keys have at most so many parts, and arrays and braces at most so many levels. -/
def depthLimit : Nat := 79

def isBareKey (c : Char) : Bool := c.isAlphanum || c == '_' || c == '-'

def simpleKey : Scan Key := do
  let (text, span) ← Scan.spanned
    (basicText <|> literalText <|> (do return String.ofList (← Scan.someRun isBareKey)))
  return ⟨text, span⟩

def paddedKey : Scan Key := do
  blanks
  let key ← simpleKey
  blanks
  return key

def nextKey : Scan Key := do
  Scan.exactly ['.']
  paddedKey

def dottedKey : Scan (List Key × Key) := do
  let first ← paddedKey
  let rest ← Scan.many nextKey depthLimit
  let keys := first :: rest
  match keys.getLast? with
  | some last => if keys.length ≤ depthLimit then return (keys.dropLast, last) else failure
  | none => failure

def arrayItems (item : Scan Item) : Nat → Scan (List Item)
  | 0 => failure
  | limit + 1 => do
      gap
      match ← Scan.maybe (Scan.exactly [']']) with
      | some () => return []
      | none =>
          let first ← item
          gap
          match ← Scan.maybe (Scan.exactly [',']) with
          | some () => return first :: (← arrayItems item limit)
          | none =>
              Scan.exactly [']']
              return [first]

def entry (item : Scan Item) : Scan Entry := do
  let (path, key) ← dottedKey
  Scan.exactly ['=']
  blanks
  return ⟨path, key, ← item⟩

/-- The fields between braces, of which the last has no comma. -/
def braceEntries (item : Scan Item) : Nat → Scan (List Entry)
  | 0 => failure
  | limit + 1 => do
      let first ← entry item
      blanks
      match ← Scan.maybe (Scan.exactly [',']) with
      | some () => return first :: (← braceEntries item limit)
      | none => return [first]

def openBrace : Char := Char.ofNat 0x7b
def closeBrace : Char := Char.ofNat 0x7d

def array (item : Scan Item) : Scan (List Item) := fun text =>
  (do Scan.exactly ['[']; arrayItems item text.length : Scan (List Item)) text

def braces (item : Scan Item) : Scan Fields := fun text =>
  (do
    Scan.exactly [openBrace]
    let entries ← Scan.maybe (braceEntries item text.length)
    blanks
    Scan.exactly [closeBrace]
    (Fields.insertAll (entries.getD []) [] : Option Fields) : Scan Fields) text

def scalarItem : Scan Item := do
  let (value, span) ← Scan.spanned scalar
  return .scalar value span

def item : Nat → Scan Item
  | 0 => scalarItem
  | depth + 1 =>
      scalarItem <|>
      (do
        let (items, span) ← Scan.spanned (array (item depth))
        return .array items span) <|>
      (do
        let (fields, span) ← Scan.spanned (braces (item depth))
        return .braces fields span)

inductive Line where
  | blank
  | field (entry : Entry)
  | header (repeated : Bool) (path : List Key) (key : Key) (span : Span)
deriving Inhabited

/-- A header between single or double brackets. -/
def header : Scan Line := do
  let repeated := (← Scan.maybe (Scan.exactly ['[', '['])).isSome
  if !repeated then Scan.exactly ['[']
  let (path, key) ← dottedKey
  Scan.exactly (if repeated then [']', ']'] else [']'])
  return .header repeated path key default

def headerLine : Scan Line := do
  let (line, span) ← Scan.spanned header
  trailing
  match line with
  | .header repeated path key _ => return .header repeated path key span
  | other => return other

def line : Scan Line := do
  blanks
  match ← Scan.peek with
  | none => failure
  | some c =>
      if c = '#' ∨ c = '\n' ∨ c = '\r' then
        trailing
        return .blank
      else if c = '[' then headerLine
      else
        let e ← entry (item depthLimit)
        trailing
        return .field e

def lines (text : List Char) : Option (List Line) :=
  match (Scan.many line text.length) text with
  | some (read, rest) => if rest.all isBlank then some read else none
  | none => none

def parts : List Line → List Entry × List Section
  | [] => ([], [])
  | .blank :: rest => parts rest
  | .field e :: rest => let (entries, sections) := parts rest; (e :: entries, sections)
  | .header repeated path key span :: rest =>
      let (entries, sections) := parts rest
      ([], ⟨repeated, path, key, span, entries⟩ :: sections)

def withoutMark : List Char → List Char
  | c :: rest => if c.toNat = 0xfeff then rest else c :: rest
  | [] => []

/-- The fields of a document. -/
def parse? (text : String) : Option Fields := do
  let (entries, sections) := parts (← lines (withoutMark text.toList))
  assemble entries sections

end Botwright.Toml
