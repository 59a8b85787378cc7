import Botwright.Yaml.Style
/-!
# A place in a text

The characters that are still to be read and where they stand. Columns count characters from the
last line break; a carriage return and a line feed together are one break.
-/
namespace Botwright.Yaml

structure Cursor where
  rest : List Char
  index : Nat
  line : Nat
  column : Nat
deriving Inhabited

namespace Cursor

def start (cs : List Char) : Cursor := ⟨cs, 0, 0, 0⟩

def peek (c : Cursor) : Option Char := c.rest.head?

def peekAt (n : Nat) (c : Cursor) : Option Char := c.rest[n]?

def next (p : Char → Bool) (c : Cursor) : Bool := (c.peek.map p).getD false

def atBreak (c : Cursor) : Bool := c.next isBreak

def atBlank (c : Cursor) : Bool := c.next isBlank

def atWordEnd (c : Cursor) : Bool := endsWord c.peek

def atLineEnd (c : Cursor) : Bool := c.peek.isNone || c.atBreak

def skip (c : Cursor) : Cursor :=
  match c.rest with
  | [] => c
  | _ :: rest => ⟨rest, c.index + 1, c.line, c.column + 1⟩

def skipMany : Nat → Cursor → Cursor
  | 0, c => c
  | n + 1, c => skipMany n c.skip

def skipBreak (c : Cursor) : Cursor :=
  match c.rest with
  | '\r' :: '\n' :: rest => ⟨rest, c.index + 2, c.line + 1, 0⟩
  | d :: rest => if isBreak d then ⟨rest, c.index + 1, c.line + 1, 0⟩ else c
  | [] => c

def breakText (c : Cursor) : List Char :=
  match c.peek with
  | none => []
  | some d => if d.toNat = 0x2028 ∨ d.toNat = 0x2029 then [d] else if isBreak d then ['\n'] else []

/-- The longest run of characters that satisfy `p` and the cursor behind it. -/
def span (p : Char → Bool) (c : Cursor) : List Char × Cursor :=
  let run := c.rest.takeWhile p
  (run, ⟨c.rest.drop run.length, c.index + run.length, c.line, c.column + run.length⟩)

def skipWhile (p : Char → Bool) (c : Cursor) : Cursor := (c.span p).2

def skipLine (c : Cursor) : Cursor := c.skipWhile (!isBreak ·)

/-- At a document mark, three dashes or dots at the start of a line. -/
def atMark (mark : Char) (c : Cursor) : Bool :=
  c.column == 0 && c.rest.take 3 == [mark, mark, mark] && endsWord (c.peekAt 3)

def atDocumentMark (c : Cursor) : Bool := c.atMark '-' || c.atMark '.'

end Cursor
end Botwright.Yaml
