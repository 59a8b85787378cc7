import Botwright.Yaml.Cursor
/-!
# The content of scalars

Plain, quoted and block scalars. Breaks inside plain and quoted scalars fold: a single break is a
space, further breaks are kept.
-/
namespace Botwright.Yaml

/-- The blanks and breaks between two words of a scalar. -/
structure Gap where
  blanks : List Char := []
  firstBreak : List Char := []
  moreBreaks : List Char := []
  broken : Bool := false
deriving Inhabited

namespace Gap

def none : Gap := {}

def fold (g : Gap) : List Char :=
  if g.broken then
    if g.firstBreak = ['\n'] then (if g.moreBreaks.isEmpty then [' '] else g.moreBreaks)
    else g.firstBreak ++ g.moreBreaks
  else g.blanks

/-- Reads blanks and breaks. Behind a break, a tab before column `limit` is refused. -/
def read (limit : Nat) : Nat → Gap → Cursor → Option (Gap × Cursor)
  | 0, g, c => some (g, c)
  | fuel + 1, g, c =>
      match c.peek with
      | Option.none => some (g, c)
      | some d =>
          if isBlank d then
            if g.broken then
              if d = '\t' ∧ c.column < limit then Option.none else read limit fuel g c.skip
            else read limit fuel { g with blanks := g.blanks ++ [d] } c.skip
          else if isBreak d then
            if g.broken then
              read limit fuel { g with moreBreaks := g.moreBreaks ++ c.breakText } c.skipBreak
            else
              read limit fuel { g with blanks := [], firstBreak := c.breakText, broken := true }
                c.skipBreak
          else some (g, c)

end Gap

def isFlowIndicator (c : Char) : Bool :=
  c == ',' || c == '[' || c == ']' || c.toNat == 0x7b || c.toNat == 0x7d

/-- The words of a plain scalar up to the next blank, break or indicator, latest character first.
Inside a flow collection a colon in front of an indicator is refused. -/
def plainWord (inFlow : Bool) : Nat → List Char → Cursor → Option (List Char × Cursor)
  | 0, read, c => some (read, c)
  | fuel + 1, read, c =>
      match c.peek with
      | none => some (read, c)
      | some d =>
          if endsWord (some d) then some (read, c)
          else if d = ':' ∧ inFlow ∧
              ((c.peekAt 1).map fun e => isFlowIndicator e || e == '?').getD false then none
          else if (d = ':' ∧ endsWord (c.peekAt 1)) ∨ (inFlow ∧ isFlowIndicator d) then
            some (read, c)
          else plainWord inFlow fuel (d :: read) c.skip

/-- A plain scalar whose lines stand at column `indent` or behind. Gives the text, the cursor and
whether a line break follows the text. -/
def plainScalar (inFlow : Bool) (indent : Nat) :
    Nat → List Char → Gap → Cursor → Option (List Char × Bool × Cursor)
  | 0, read, gap, c => some (read.reverse, gap.broken, c)
  | fuel + 1, read, gap, c =>
      if c.atDocumentMark ∨ c.peek = some '#' then some (read.reverse, gap.broken, c)
      else
        match plainWord inFlow c.rest.length [] c with
        | none => none
        | some (word, c') =>
            let read := if word.isEmpty then read else word ++ gap.fold.reverse ++ read
            let gap := if word.isEmpty then gap else Gap.none
            if c'.atBlank || c'.atBreak then
              match Gap.read indent c'.rest.length Gap.none c' with
              | none => none
              | some (gap', c'') =>
                  if !inFlow && c''.column < indent then some (read.reverse, gap'.broken, c'')
                  else plainScalar inFlow indent fuel read gap' c''
            else some (read.reverse, gap.broken, c')

def simpleEscape? (c : Char) : Option Char :=
  let table := [('0', 0), ('a', 7), ('b', 8), ('t', 9), ('\t', 9), ('n', 10), ('v', 11), ('f', 12),
    ('r', 13), ('e', 27), (' ', 32), ('"', 34), ('/', 47), ('\\', 92), ('N', 0x85), ('_', 0xa0),
    ('L', 0x2028), ('P', 0x2029)]
  (table.find? (·.1 == c)).map fun (_, code) => Char.ofNat code

def escapeWidth? (c : Char) : Option Nat :=
  if c = 'x' then some 2 else if c = 'u' then some 4 else if c = 'U' then some 8 else none

def escape? (c : Cursor) : Option (Char × Nat) :=
  match c.peek with
  | none => none
  | some d =>
      match simpleEscape? d with
      | some e => some (e, 1)
      | none =>
          (escapeWidth? d).bind fun width =>
            let digits := (c.rest.drop 1).take width
            if digits.length < width then none
            else (Text.readDigits? 16 digits).bind fun code =>
              if (0xd800 ≤ code ∧ code < 0xe000) ∨ 0x10ffff < code then none
              else some (Char.ofNat code, width + 1)

/-- Reads a quoted scalar up to its next gap, latest character first. The flag tells that an
escaped line break ended the run. -/
def quotedRun (single : Bool) : Nat → List Char → Cursor → Option (List Char × Bool × Cursor)
  | 0, read, c => some (read, false, c)
  | fuel + 1, read, c =>
      match c.peek with
      | none => some (read, false, c)
      | some d =>
          if endsWord (some d) then some (read, false, c)
          else if single && d == '\'' then
            if c.peekAt 1 = some '\'' then quotedRun single fuel ('\'' :: read) (c.skipMany 2)
            else some (read, false, c)
          else if !single && d == '"' then some (read, false, c)
          else if !single && d == '\\' then
            if c.skip.atBreak then some (read, true, c.skip.skipBreak)
            else match escape? c.skip with
              | none => none
              | some (e, width) => quotedRun single fuel (e :: read) (c.skipMany (width + 1))
          else quotedRun single fuel (d :: read) c.skip

def quotedScalar (single : Bool) : Nat → List Char → Cursor → Option (List Char × Cursor)
  | 0, _, _ => none
  | fuel + 1, read, c =>
      if c.atDocumentMark || c.peek.isNone then none
      else
        match quotedRun single c.rest.length read c with
        | none => none
        | some (read, escaped, c) =>
            if c.peek = some (if single then '\'' else '"') then some (read.reverse, c.skip)
            else
              match Gap.read 0 c.rest.length { broken := escaped } c with
              | none => none
              | some (gap, c) => quotedScalar single fuel (gap.fold.reverse ++ read) c

/-- What happens to the breaks at the end of a block scalar. -/
inductive Chomping where
  | strip | clip | keep
deriving DecidableEq

def chomping? : Option Char → Option Chomping
  | some '+' => some .keep
  | some '-' => some .strip
  | _ => none

def indentHint? (c : Cursor) : Option (Option Nat × Cursor) :=
  match c.peek with
  | some d =>
      if DecimalNumeral.isDigit d then
        if d = '0' then none else some (some (d.toNat - 48), c.skip)
      else some (none, c)
  | none => some (none, c)

def blockHeader? (c : Cursor) : Option (Chomping × Option Nat × Cursor) :=
  match chomping? c.peek with
  | some chomping => (indentHint? c.skip).map fun (hint, c) => (chomping, hint, c)
  | none =>
      (indentHint? c).map fun (hint, c) =>
        match hint, chomping? c.peek with
        | some _, some chomping => (chomping, hint, c.skip)
        | _, _ => (.clip, hint, c)

/-- Reads blank lines in front of a line of a block scalar; `indent` is zero while it is not known.
Gives the breaks and the greatest column reached. -/
def blockBreaks (indent : Nat) : Nat → Nat → List Char → Cursor → Option (Nat × List Char × Cursor)
  | 0, reached, breaks, c => some (reached, breaks, c)
  | fuel + 1, reached, breaks, c =>
      let run := c.rest.takeWhile (· == ' ')
      let c := c.skipMany (if indent = 0 then run.length else min run.length (indent - c.column))
      let reached := max reached c.column
      if (indent = 0 ∨ c.column < indent) ∧ c.peek = some '\t' then none
      else if c.atBreak then blockBreaks indent fuel reached (breaks ++ c.breakText) c.skipBreak
      else some (reached, breaks, c)

structure Block where
  read : List Char := []
  lineBreak : List Char := []
  blankLines : List Char := []
  afterBlank : Bool := false

def blockLines (literal : Bool) (indent : Nat) : Nat → Block → Cursor → Option (Block × Cursor)
  | 0, b, c => some (b, c)
  | fuel + 1, b, c =>
      if c.column ≠ indent ∨ c.peek.isNone then some (b, c)
      else
        let blank := c.atBlank
        let folds := !literal && b.lineBreak == ['\n'] && !b.afterBlank && !blank
        let joint :=
          if folds then (if b.blankLines.isEmpty then [' '] else []) else b.lineBreak
        let (line, c) := c.span (!isBreak ·)
        let lineBreak := c.breakText
        match blockBreaks indent c.rest.length 0 [] c.skipBreak with
        | none => none
        | some (_, blankLines, c) =>
            blockLines literal indent fuel
              ⟨line.reverse ++ b.blankLines.reverse ++ joint.reverse ++ b.read, lineBreak,
                blankLines, blank⟩ c

/-- A block scalar behind its indicator, inside a collection at column `parent` (minus one at the
top level). -/
def blockScalar (literal : Bool) (parent : Int) (c : Cursor) : Option (List Char × Cursor) :=
  match blockHeader? c with
  | none => none
  | some (chomping, hint, c) =>
      let c := c.skipWhile isBlank
      let c := if c.peek = some '#' then c.skipLine else c
      if !c.atLineEnd then none
      else
        let c := c.skipBreak
        let fixed := (hint.map fun n => (max parent 0).toNat + n).getD 0
        match blockBreaks fixed (c.rest.length + 1) 0 [] c with
        | none => none
        | some (reached, breaks, c) =>
            let indent :=
              if fixed ≠ 0 then fixed else max reached (max (parent + 1) 1).toNat
            match blockLines literal indent (c.rest.length + 1) { blankLines := breaks } c with
            | none => none
            | some (b, c) =>
                let ending := match chomping with
                  | .strip => []
                  | .clip => b.lineBreak
                  | .keep => b.lineBreak ++ b.blankLines
                some (b.read.reverse ++ ending, c)

end Botwright.Yaml
