import Botwright.Text.Numeral
import Botwright.Toml.Scan
/-!
# Quoted text

Basic text has escapes and literal text has none; both come on one line or, between three quotes,
on several. A break right behind the opening quotes does not count.
-/
namespace Botwright.Toml

def codePoint (digits : Nat) : Scan Char := do
  let cs ← Scan.count digits fun c => (Text.digitValue? 16 c).isSome
  match Text.readDigits? 16 cs with
  | none => failure
  | some n => if n.isValidChar then return Char.ofNat n else failure

def escape : Scan Char := do
  let c ← Scan.one fun _ => true
  if c = 'b' then return Char.ofNat 8
  else if c = 't' then return '\t'
  else if c = 'n' then return '\n'
  else if c = 'f' then return Char.ofNat 12
  else if c = 'r' then return '\r'
  else if c = '"' ∨ c = '\\' then return c
  else if c = 'u' then codePoint 4
  else if c = 'U' then codePoint 8
  else failure

def isBasic (c : Char) : Bool := isVisible c && c != '"' && c != '\\'

def isLiteral (c : Char) : Bool := isVisible c && c != '\''

def pieces (piece : Scan (List Char)) : Scan (List Char) := fun text =>
  ((Scan.many piece text.length) text).map fun (read, rest) => (read.flatten, rest)

def escaped : Scan (List Char) := do
  Scan.exactly ['\\']
  return [← escape]

def basicText : Scan String := do
  Scan.exactly ['"']
  let cs ← pieces (Scan.someRun isBasic <|> escaped)
  Scan.exactly ['"']
  return String.ofList cs

def literalText : Scan String := do
  Scan.exactly ['\'']
  let cs ← Scan.run isLiteral
  Scan.exactly ['\'']
  return String.ofList cs

/-- A backslash at the end of a line joins it to the next text. -/
def joinedLines : Scan (List Char) := do
  Scan.exactly ['\\']
  blanks
  newline
  let _ ← pieces (Scan.someRun isBlank <|> (do newline; return ['\n']))
  return []

def keptBreak : Scan (List Char) := do
  newline
  return ['\n']

/-- One or two quotes that do not belong to three in a row. -/
def looseQuotes (quote : Char) : Scan (List Char) := fun text =>
  let taken := text.takeWhile (· == quote)
  if taken.isEmpty ∨ 2 < taken.length then none else some (taken, text.dropWhile (· == quote))

/-- The closing quotes, and up to two more in front of them that belong to the text. -/
def closingQuotes (quote : Char) : Scan (List Char) := fun text =>
  let count := (text.takeWhile (· == quote)).length
  if count < 3 then none
  else some (List.replicate (min (count - 3) 2) quote, text.drop (min count 5))

def severalLines (quote : Char) (piece : Scan (List Char)) : Scan String := do
  Scan.exactly [quote, quote, quote]
  let _ ← Scan.maybe newline
  let cs ← pieces (piece <|> looseQuotes quote)
  let last ← closingQuotes quote
  return String.ofList (cs ++ last)

def longBasicText : Scan String :=
  severalLines '"' (Scan.someRun isBasic <|> joinedLines <|> escaped <|> keptBreak)

def longLiteralText : Scan String :=
  severalLines '\'' (Scan.someRun isLiteral <|> keptBreak)

def quotedText : Scan String :=
  longBasicText <|> basicText <|> longLiteralText <|> literalText

end Botwright.Toml
