/-!
# Scanning a text

A scan takes characters from the front of a text or fails, and a failed alternative takes nothing.
A place in the text is told by the number of characters that remain there.
-/
namespace Botwright.Toml

/-- The characters between two places: as many remain at its start and at its end. -/
structure Span where
  start : Nat
  stop : Nat
deriving DecidableEq, Inhabited

abbrev Scan (α : Type) := StateT (List Char) Option α

namespace Scan

def peek : Scan (Option Char) := fun text => some (text.head?, text)

def one (p : Char → Bool) : Scan Char
  | c :: rest => if p c then some (c, rest) else none
  | [] => none

def exactly (cs : List Char) : Scan Unit := fun text =>
  if text.take cs.length = cs then some ((), text.drop cs.length) else none

def run (p : Char → Bool) : Scan (List Char) := fun text =>
  some (text.takeWhile p, text.dropWhile p)

def someRun (p : Char → Bool) : Scan (List Char) := fun text =>
  match text.takeWhile p with
  | [] => none
  | taken => some (taken, text.dropWhile p)

def count (n : Nat) (p : Char → Bool) : Scan (List Char) := fun text =>
  let taken := text.take n
  if taken.length = n ∧ taken.all p then some (taken, text.drop n) else none

def maybe {α : Type} (s : Scan α) : Scan (Option α) := fun text =>
  match s text with
  | some (a, rest) => some (some a, rest)
  | none => some (none, text)

def spanned {α : Type} (s : Scan α) : Scan (α × Span) := fun text =>
  (s text).map fun (a, rest) => ((a, ⟨text.length, rest.length⟩), rest)

/-- Repeats a scan until it fails, at most `limit` times. -/
def many {α : Type} (s : Scan α) : Nat → Scan (List α)
  | 0 => return []
  | limit + 1 => do
      match ← maybe s with
      | none => return []
      | some a => return a :: (← many s limit)

end Scan

def isBlank (c : Char) : Bool := c == ' ' || c == '\t'

/-- The characters of comments and of quoted text; controls other than the tab are refused. -/
def isVisible (c : Char) : Bool := c == '\t' || (0x20 ≤ c.toNat && c.toNat != 0x7f)

def blanks : Scan Unit := do let _ ← Scan.run isBlank

def newline : Scan Unit := Scan.exactly ['\n'] <|> Scan.exactly ['\r', '\n']

def comment : Scan Unit := do
  Scan.exactly ['#']
  let _ ← Scan.run isVisible

def lineEnd : Scan Unit := do
  match ← Scan.peek with
  | none => return ()
  | some _ => newline

def trailing : Scan Unit := do
  blanks
  let _ ← Scan.maybe comment
  lineEnd

/-- A blank, a break or a comment with its break, as they stand between the items of an array. -/
def gapPart : Scan Unit :=
  (do let _ ← Scan.someRun isBlank) <|> newline <|> (do comment; newline)

def gap : Scan Unit := fun text =>
  ((Scan.many gapPart text.length) text).map fun (_, rest) => ((), rest)

end Botwright.Toml
