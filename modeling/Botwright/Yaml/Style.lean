import Botwright.Text.Numeral
import Botwright.Yaml.Scalar
/-!
# Scalar styles

How a text is written: plain where it reads back as itself, in a literal block when it has lines,
else in single or double quotes. Only double quotes can hold every character.
-/
namespace Botwright.Yaml

def isBreak (c : Char) : Bool :=
  c == '\n' || c == '\r' || c.toNat == 0x85 || c.toNat == 0x2028 || c.toNat == 0x2029

def isBlank (c : Char) : Bool := c == ' ' || c == '\t'

def endsWord : Option Char → Bool
  | none => true
  | some c => isBlank c || isBreak c || c.toNat == 0

def isPrintable (c : Char) : Bool :=
  let n := c.toNat
  n == 10 || (0x20 ≤ n && n ≤ 0x7e) || (0xa0 ≤ n && n != 0xfeff && n != 0xfffe && n != 0xffff)

inductive Style where
  | plain | singleQuoted | doubleQuoted | literal
deriving DecidableEq, Inhabited

def hasNeighbours (p : Char → Char → Bool) : List Char → Bool
  | c :: d :: rest => p c d || hasNeighbours p (d :: rest)
  | _ => false

def isIndicator (c : Char) : Bool :=
  "#,[]&*!|>'\"%@".toList.contains c || c.toNat == 0x60 || c.toNat == 0x7b || c.toNat == 0x7d

/-- Whether a plain scalar would be taken for something else. -/
def hasIndicators (cs : List Char) : Bool :=
  "---".toList.isPrefixOf cs || "...".toList.isPrefixOf cs ||
    (match cs with
      | [] => false
      | c :: rest =>
          isIndicator c || ((c == '?' || c == '-' || c == ':') && endsWord rest.head?)) ||
    hasNeighbours (fun c d => d == '#' && endsWord (some c)) cs ||
    hasNeighbours (fun c d => c == ':' && endsWord (some d)) cs.tail ||
    (cs.length > 1 && cs.getLast? == some ':')

/-- A text that only double quotes can hold. -/
def needsEscapes (cs : List Char) : Bool :=
  cs.any (!isPrintable ·) || hasNeighbours (fun c d => c == ' ' && isBreak d) cs

def hasBreakSpace (cs : List Char) : Bool := hasNeighbours (fun c d => isBreak c && d == ' ') cs

def allowsPlain (cs : List Char) : Bool :=
  !cs.isEmpty && cs.head? != some ' ' && cs.getLast? != some ' ' && !cs.any isBreak &&
    !needsEscapes cs && !hasIndicators cs

def allowsSingleQuotes (cs : List Char) : Bool := !needsEscapes cs && !hasBreakSpace cs

def allowsLiteral (cs : List Char) : Bool := !needsEscapes cs && cs.getLast? != some ' '

/-- Whether an unquoted text would read back as something else. -/
def isAmbiguous (s : String) : Bool := resolve s != .text || isZeroLed s.toList

def styleOf (s : String) : Style :=
  let cs := s.toList
  if cs.contains '\n' then
    if allowsLiteral cs then .literal else .doubleQuoted
  else if allowsPlain cs && !isAmbiguous s then .plain
  else if allowsSingleQuotes cs then .singleQuoted
  else .doubleQuoted

def upperHex (n width : Nat) : List Char := (Text.lowDigits 16 n width).map Char.toUpper

def escape (c : Char) : List Char :=
  let n := c.toNat
  if c = '"' then ['\\', '"']
  else if c = '\\' then ['\\', '\\']
  else if isPrintable c && !isBreak c then [c]
  else
    let short := [(0, '0'), (7, 'a'), (8, 'b'), (9, 't'), (10, 'n'), (11, 'v'), (12, 'f'),
      (13, 'r'), (27, 'e'), (0x85, 'N'), (0x2028, 'L'), (0x2029, 'P')]
    match short.find? (·.1 == n) with
    | some (_, letter) => ['\\', letter]
    | none =>
        if n ≤ 0xff then '\\' :: 'x' :: upperHex n 2
        else if n ≤ 0xffff then '\\' :: 'u' :: upperHex n 4
        else '\\' :: 'U' :: upperHex n 8

def spaces (n : Nat) : List Char := List.replicate n ' '

/-- Indents a character that follows a break; `fresh` tells whether a line has just begun. -/
def indented (indent : Nat) (body : Char → List Char) : Bool → List Char → List Char
  | _, [] => []
  | fresh, c :: rest =>
      if isBreak c then c :: indented indent body true rest
      else (if fresh then spaces indent else []) ++ body c ++ indented indent body false rest

def singleQuoted (indent : Nat) (cs : List Char) : List Char :=
  let body := indented indent (fun c => if c = '\'' then ['\'', '\''] else [c]) false cs
  let close := if (cs.getLast?.map isBreak).getD false then spaces indent else []
  '\'' :: body ++ close ++ ['\'']

/-- The header of a literal block: an indentation hint when the text begins with a space or a
break, then the treatment of the final breaks. -/
def literalHeader (cs : List Char) : List Char :=
  let hint := match cs.head? with
    | some c => if c = ' ' ∨ isBreak c then ['2'] else []
    | none => []
  let chomp := match cs.reverse with
    | [] => ['-']
    | [c] => if isBreak c then ['+'] else ['-']
    | c :: d :: _ => if !isBreak c then ['-'] else if isBreak d then ['+'] else []
  '|' :: hint ++ chomp

def write (indent : Nat) (s : String) : List Char :=
  let cs := s.toList
  match styleOf s with
  | .plain => cs
  | .singleQuoted => singleQuoted indent cs
  | .doubleQuoted => '"' :: cs.flatMap escape ++ ['"']
  | .literal => literalHeader cs ++ '\n' :: indented indent (fun c => [c]) true cs

def endsLine (s : String) : Bool :=
  styleOf s == .literal && (s.toList.getLast?.map isBreak).getD false

end Botwright.Yaml
