import Botwright.Yaml.Content
/-!
# Tokens

The indicators and scalars of a text. Block collections are told by indentation: a token marks
where one begins and another where it ends. A simple key is recognised only at its colon, so its
tokens are put in front of those that were read since it began.
-/
namespace Botwright.Yaml

inductive Token where
  | version (major minor : Nat)
  | tagHandle (handle expansion : String)
  | documentStart
  | documentEnd
  | blockSequence
  | blockMapping
  | blockEnd
  | flowSequence
  | flowSequenceEnd
  | flowMapping
  | flowMappingEnd
  | blockEntry
  | flowEntry
  | key
  | value
  | reference (name : String)
  | anchor (name : String)
  | tag (handle suffix : String)
  | scalar (text : String) (plain : Bool)
deriving DecidableEq, Inhabited

/-- A place where a simple key may have begun. -/
structure PendingKey where
  /-- A line at the indentation of a block collection has to be a key. -/
  required : Bool
  /-- How many tokens stand in front of the key. -/
  tokens : Nat
  index : Nat
  line : Nat
  column : Nat
deriving Inhabited

structure Lexer where
  cursor : Cursor
  /-- The tokens read so far, latest first. -/
  tokens : List Token
  count : Nat
  flowLevel : Nat
  /-- The column of the innermost block collection, minus one outside of all. -/
  indent : Int
  indents : List Int
  keyAllowed : Bool
  /-- The pending key of every open flow collection and of the block around them, innermost
  first. -/
  keys : List (Option PendingKey)
deriving Inhabited

def insertBehind (n : Nat) (inserted tokens : List Token) : List Token :=
  tokens.take n ++ inserted ++ tokens.drop n

namespace Lexer

def start (cs : List Char) : Lexer :=
  ⟨Cursor.start cs, [], 0, 0, -1, [], true, [none]⟩

def inFlow (s : Lexer) : Bool := s.flowLevel != 0

def emit (t : Token) (s : Lexer) : Lexer := { s with tokens := t :: s.tokens, count := s.count + 1 }

def moveTo (c : Cursor) (s : Lexer) : Lexer := { s with cursor := c }

def allowKey (allowed : Bool) (s : Lexer) : Lexer := { s with keyAllowed := allowed }

def indicator (t : Token) (s : Lexer) : Lexer := (s.emit t).moveTo s.cursor.skip

/-- Past blanks, comments and breaks. A tab counts as a blank only where no key may begin. -/
def skipToToken : Nat → Lexer → Lexer
  | 0, s => s
  | fuel + 1, s =>
      let tabs := s.inFlow || !s.keyAllowed
      let c := s.cursor.skipWhile fun d => d == ' ' || (tabs && d == '\t')
      let c := if c.peek = some '#' then c.skipLine else c
      if c.atBreak then
        skipToToken fuel ((s.moveTo c.skipBreak).allowKey (s.keyAllowed || !s.inFlow))
      else s.moveTo c

/-- Gives up pending keys that did not end on their line or within 1024 characters. -/
def dropStaleKeys (s : Lexer) : Option Lexer :=
  let stale (k : PendingKey) : Bool :=
    k.line < s.cursor.line || k.index + 1024 < s.cursor.index
  if s.keys.any fun k => (k.map fun k => stale k && k.required).getD false then none
  else some { s with keys := s.keys.map (·.filter (!stale ·)) }

def removeKey (s : Lexer) : Option Lexer :=
  match s.keys with
  | some k :: rest => if k.required then none else some { s with keys := none :: rest }
  | _ => some s

def saveKey (s : Lexer) : Option Lexer :=
  if !s.keyAllowed then some s
  else
    s.removeKey.map fun s =>
      let c := s.cursor
      let k : PendingKey :=
        ⟨!s.inFlow && s.indent == (c.column : Int), s.count, c.index, c.line, c.column⟩
      { s with keys := some k :: s.keys.tail }

def unroll (column : Int) : Nat → Lexer → Lexer
  | 0, s => s
  | fuel + 1, s =>
      if s.inFlow || s.indent ≤ column then s
      else
        let s := s.emit .blockEnd
        unroll column fuel { s with indent := s.indents.headD (-1), indents := s.indents.tail }

def unrollTo (column : Int) (s : Lexer) : Lexer := s.unroll column (s.indents.length + 1)

/-- Begins a block collection at `column` unless one is there; its token goes behind the last
`back` tokens. -/
def roll (column : Nat) (back : Nat) (t : Token) (s : Lexer) : Lexer :=
  if s.inFlow || (column : Int) ≤ s.indent then s
  else
    { s with
      tokens := insertBehind back [t] s.tokens
      count := s.count + 1
      indents := s.indent :: s.indents
      indent := column }

def fetchMark (t : Token) (s : Lexer) : Option Lexer :=
  ((s.unrollTo (-1)).removeKey).map fun s =>
    ((s.allowKey false).emit t).moveTo (s.cursor.skipMany 3)

def openFlow (t : Token) (s : Lexer) : Option Lexer :=
  s.saveKey.map fun s =>
    { (s.indicator t).allowKey true with keys := none :: s.keys, flowLevel := s.flowLevel + 1 }

def closeFlow (t : Token) (s : Lexer) : Option Lexer :=
  s.removeKey.map fun s =>
    let s := (s.indicator t).allowKey false
    if s.inFlow then { s with keys := s.keys.tail, flowLevel := s.flowLevel - 1 } else s

def fetchFlowEntry (s : Lexer) : Option Lexer :=
  s.removeKey.map fun s => (s.allowKey true).indicator .flowEntry

def fetchBlockEntry (s : Lexer) : Option Lexer :=
  if !s.inFlow && !s.keyAllowed then none
  else
    (s.roll s.cursor.column 0 .blockSequence).removeKey.map fun s =>
      (s.allowKey true).indicator .blockEntry

def fetchKey (s : Lexer) : Option Lexer :=
  if !s.inFlow && !s.keyAllowed then none
  else
    (s.roll s.cursor.column 0 .blockMapping).removeKey.map fun s =>
      (s.allowKey (!s.inFlow)).indicator .key

/-- A colon ends a simple key, or stands on its own behind a long one. -/
def fetchValue (s : Lexer) : Option Lexer :=
  match s.keys with
  | some k :: rest =>
      let back := s.count - k.tokens
      let s := { s with tokens := insertBehind back [.key] s.tokens, count := s.count + 1 }
      let s := s.roll k.column (back + 1) .blockMapping
      some ((({ s with keys := none :: rest }).allowKey false).indicator .value)
  | _ =>
      if !s.inFlow && !s.keyAllowed then none
      else
        some (((s.roll s.cursor.column 0 .blockMapping).allowKey (!s.inFlow)).indicator .value)

def isNameChar (c : Char) : Bool :=
  ('0' ≤ c && c ≤ '9') || ('A' ≤ c && c ≤ 'Z') || ('a' ≤ c && c ≤ 'z') || c == '_' || c == '-'

def scanName (c : Cursor) : Option (String × Cursor) :=
  let (name, c) := c.span isNameChar
  let ends := match c.peek with
    | none => true
    | some d =>
        endsWord (some d) || "?:,]%@".toList.contains d || d.toNat == 0x7d || d.toNat == 0x60
  if name.isEmpty || !ends then none else some (String.ofList name, c)

def fetchName (token : String → Token) (s : Lexer) : Option Lexer :=
  s.saveKey.bind fun s =>
    (scanName s.cursor.skip).map fun (name, c) => ((s.allowKey false).emit (token name)).moveTo c

/-- A tag handle: an exclamation mark, or a name between two. In a directive a name has to end. -/
def scanHandle (directive : Bool) (c : Cursor) : Option (List Char × Cursor) :=
  if c.peek ≠ some '!' then none
  else
    let (name, c) := c.skip.span isNameChar
    if c.peek = some '!' then some ('!' :: name ++ ['!'], c.skip)
    else if directive && !name.isEmpty then none
    else some ('!' :: name, c)

def isUriChar (verbatim : Bool) (c : Char) : Bool :=
  isNameChar c || ";/?:@&=+$.!~*'()%".toList.contains c ||
    (verbatim && (c == ',' || c == '[' || c == ']'))

def percentBytes : Nat → List Char → List UInt8 × List Char
  | 0, cs => ([], cs)
  | fuel + 1, cs =>
      match cs with
      | '%' :: a :: b :: rest =>
          match Text.readDigits? 16 [a, b] with
          | some n =>
              let (bytes, rest) := percentBytes fuel rest
              (UInt8.ofNat n :: bytes, rest)
          | none => ([], cs)
      | _ => ([], cs)

/-- Undoes percent escapes, which have to spell characters. -/
def unescapeUri : Nat → List Char → Option (List Char)
  | 0, _ => none
  | fuel + 1, cs =>
      match cs with
      | [] => some []
      | '%' :: _ =>
          let (bytes, rest) := percentBytes cs.length cs
          if bytes.isEmpty then none
          else (String.fromUTF8? ⟨bytes.toArray⟩).bind fun s =>
            (unescapeUri fuel rest).map (s.toList ++ ·)
      | c :: rest => (unescapeUri fuel rest).map (c :: ·)

def scanUri (verbatim : Bool) (before : List Char) (c : Cursor) : Option (List Char × Cursor) :=
  let (run, c) := c.span (isUriChar verbatim)
  (unescapeUri (run.length + 1) run).map fun cs => (before ++ cs, c)

def scanTag (c : Cursor) : Option (String × String × Cursor) :=
  if c.peekAt 1 = some '<' then
    (scanUri true [] (c.skipMany 2)).bind fun (uri, c) =>
      if uri.isEmpty || c.peek != some '>' then none
      else some ("", String.ofList uri, c.skip)
  else
    (scanHandle false c).bind fun (handle, c) =>
      if handle.length > 1 && handle.getLast? == some '!' then
        (scanUri false [] c).bind fun (suffix, c) =>
          if suffix.isEmpty then none
          else some (String.ofList handle, String.ofList suffix, c)
      else
        (scanUri false handle.tail c).map fun (suffix, c) =>
          if suffix.isEmpty then ("", "!", c) else ("!", String.ofList suffix, c)

def fetchTag (s : Lexer) : Option Lexer :=
  s.saveKey.bind fun s =>
    (scanTag s.cursor).bind fun (handle, suffix, c) =>
      if c.atWordEnd || (s.inFlow && c.peek == some ',') then
        some (((s.allowKey false).emit (.tag handle suffix)).moveTo c)
      else none

def fetchBlockScalar (literal : Bool) (s : Lexer) : Option Lexer :=
  s.removeKey.bind fun s =>
    (blockScalar literal s.indent s.cursor.skip).map fun (text, c) =>
      ((s.allowKey true).emit (.scalar (String.ofList text) false)).moveTo c

def fetchQuoted (single : Bool) (s : Lexer) : Option Lexer :=
  s.saveKey.bind fun s =>
    (quotedScalar single (s.cursor.rest.length + 1) [] s.cursor.skip).map fun (text, c) =>
      ((s.allowKey false).emit (.scalar (String.ofList text) false)).moveTo c

def fetchPlain (s : Lexer) : Option Lexer :=
  s.saveKey.bind fun s =>
    (plainScalar s.inFlow (s.indent + 1).toNat (s.cursor.rest.length + 1) [] Gap.none s.cursor).map
      fun (text, broken, c) =>
        ((s.allowKey broken).emit (.scalar (String.ofList text) true)).moveTo c

def versionPart (c : Cursor) : Option (Nat × Cursor) :=
  let (digits, c) := c.span DecimalNumeral.isDigit
  if digits.isEmpty || digits.length > 9 then none
  else some (DecimalNumeral.digitsValue digits, c)

def versionDirective (c : Cursor) : Option (Token × Cursor) :=
  (versionPart (c.skipWhile isBlank)).bind fun (major, c) =>
    if c.peek != some '.' then none
    else (versionPart c.skip).map fun (minor, c) => (.version major minor, c)

def tagDirective (c : Cursor) : Option (Token × Cursor) :=
  (scanHandle true (c.skipWhile isBlank)).bind fun (handle, c) =>
    if !c.atBlank then none
    else (scanUri true [] (c.skipWhile isBlank)).bind fun (expansion, c) =>
      if expansion.isEmpty || !c.atWordEnd then none
      else some (.tagHandle (String.ofList handle) (String.ofList expansion), c)

def fetchDirective (s : Lexer) : Option Lexer :=
  (s.unrollTo (-1)).removeKey.bind fun s =>
    let (name, c) := s.cursor.skip.span isNameChar
    let directive :=
      if !c.atWordEnd then none
      else if name = "YAML".toList then versionDirective c
      else if name = "TAG".toList then tagDirective c
      else none
    directive.bind fun (t, c) =>
      let c := c.skipWhile isBlank
      let c := if c.peek = some '#' then c.skipLine else c
      if !c.atLineEnd then none
      else some (((s.allowKey false).emit t).moveTo c.skipBreak)

def startsPlain (inFlow : Bool) (c : Char) (next : Option Char) : Bool :=
  (c == '-' && !((next.map isBlank).getD false)) ||
    (!inFlow && (c == '?' || c == ':') && !endsWord next) ||
    !(endsWord (some c) || c == '-' || c == '?' || c == ':' || isIndicator c)

/-- The token at the cursor. -/
def fetchAt (d : Char) (s : Lexer) : Option Lexer :=
  let c := s.cursor
  let ends := endsWord (c.peekAt 1)
  if c.column = 0 ∧ d = '%' then s.fetchDirective
  else if c.atMark '-' then s.fetchMark .documentStart
  else if c.atMark '.' then s.fetchMark .documentEnd
  else if d = '[' then s.openFlow .flowSequence
  else if d.toNat = 0x7b then s.openFlow .flowMapping
  else if d = ']' then s.closeFlow .flowSequenceEnd
  else if d.toNat = 0x7d then s.closeFlow .flowMappingEnd
  else if d = ',' then s.fetchFlowEntry
  else if d = '-' ∧ ends then s.fetchBlockEntry
  else if d = '?' ∧ (s.inFlow ∨ ends) then s.fetchKey
  else if d = ':' ∧ (s.inFlow ∨ ends) then s.fetchValue
  else if d = '*' then s.fetchName .reference
  else if d = '&' then s.fetchName .anchor
  else if d = '!' then s.fetchTag
  else if d = '|' ∧ !s.inFlow then s.fetchBlockScalar true
  else if d = '>' ∧ !s.inFlow then s.fetchBlockScalar false
  else if d = '\'' then s.fetchQuoted true
  else if d = '"' then s.fetchQuoted false
  else if startsPlain s.inFlow d (c.peekAt 1) then s.fetchPlain
  else none

def finish (s : Lexer) : Option (List Token) :=
  ((s.unrollTo (-1)).removeKey).map (·.tokens.reverse)

def run : Nat → Lexer → Option (List Token)
  | 0, _ => none
  | fuel + 1, s =>
      (skipToToken (s.cursor.rest.length + 1) s).dropStaleKeys.bind fun s =>
        let s := s.unrollTo s.cursor.column
        match s.cursor.peek with
        | none => s.finish
        | some d => (s.fetchAt d).bind (run fuel)

end Lexer

def isReadable (c : Char) : Bool :=
  let n := c.toNat
  n == 9 || n == 10 || n == 13 || n == 0x85 || (0x20 ≤ n && n ≤ 0x7e) ||
    (0xa0 ≤ n && n ≤ 0xfffd) || 0x10000 ≤ n

def withoutMark : List Char → List Char
  | c :: rest => if c.toNat = 0xfeff then rest else c :: rest
  | [] => []

def tokens? (text : String) : Option (List Token) :=
  let cs := withoutMark text.toList
  if cs.all isReadable then Lexer.run (cs.length + 2) (Lexer.start (withoutMark cs)) else none

end Botwright.Yaml
