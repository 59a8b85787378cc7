import Botwright.Decimal.Numeral
import Botwright.Toml.Text
/-!
# Scalars

Texts, booleans, 64-bit integers, floating-point numbers and moments. A moment keeps nothing but
that it is well formed.
-/
namespace Botwright.Toml

inductive Scalar where
  | text (value : String)
  | boolean (value : Bool)
  | integer (value : Int)
  | float (value : Binary64)
  | moment
deriving DecidableEq, Inhabited

def digitTail (p : Char → Bool) : List Char → List Char × List Char
  | [] => ([], [])
  | '_' :: [] => ([], ['_'])
  | '_' :: d :: rest =>
      if p d then
        let (digits, rest) := digitTail p rest
        (d :: digits, rest)
      else ([], '_' :: d :: rest)
  | d :: rest =>
      if p d then
        let (digits, rest) := digitTail p rest
        (d :: digits, rest)
      else ([], d :: rest)

/-- Digits with underscores between them, which are dropped. -/
def digits (p : Char → Bool) : Scan (List Char) := do
  let first ← Scan.one p
  let rest ← (fun text => some (digitTail p text) : Scan (List Char))
  return first :: rest

def decimalDigits : Scan (List Char) := digits DecimalNumeral.isDigit

def wholeDigits : Scan (List Char) :=
  (do Scan.exactly ['0']; return ['0']) <|> decimalDigits

def sign : Scan Bool := do
  match ← Scan.maybe (Scan.one fun c => c == '+' || c == '-') with
  | some '-' => return true
  | _ => return false

def inRange (n : Int) : Scan Int :=
  if -(Nat.pow 2 63 : Nat) ≤ n ∧ n < (Nat.pow 2 63 : Nat) then return n else failure

def decimalInteger : Scan Int := do
  let negative ← sign
  let n : Int := DecimalNumeral.digitsValue (← wholeDigits)
  inRange (if negative then -n else n)

def basedInteger (mark : Char) (base : Nat) : Scan Int := do
  Scan.exactly ['0', mark]
  let cs ← digits fun c => (Text.digitValue? base c).isSome
  match Text.readDigits? base cs with
  | some n => inRange n
  | none => failure

def integer : Scan Int :=
  basedInteger 'x' 16 <|> basedInteger 'o' 8 <|> basedInteger 'b' 2 <|> decimalInteger

def fraction : Scan (List Char) := do
  Scan.exactly ['.']
  decimalDigits

def exponent : Scan (Bool × List Char) := do
  let _ ← Scan.one fun c => c == 'e' || c == 'E'
  let negative ← sign
  return (negative, ← decimalDigits)

/-- A decimal with a fraction or an exponent. One beyond the largest number is refused; one below
the least is infinite. -/
def decimalFloat : Scan Binary64 := do
  let negative ← sign
  let whole ← wholeDigits
  let fraction ← Scan.maybe fraction
  let exponent ← Scan.maybe exponent
  if fraction.isNone && exponent.isNone then failure
  else
    let x := (DecimalNumeral.toDecimal negative ⟨whole, fraction, exponent⟩).toBinary64
    if x = Binary64.infinity false then failure else return x

def specialFloat : Scan Binary64 := do
  let negative ← sign
  (do Scan.exactly "inf".toList; return Binary64.infinity negative) <|>
    (do Scan.exactly "nan".toList; return Binary64.notANumber)

def bounded (count low high : Nat) : Scan Nat := do
  let n := DecimalNumeral.digitsValue (← Scan.count count DecimalNumeral.isDigit)
  if low ≤ n ∧ n ≤ high then return n else failure

def daysInMonth (year month : Nat) : Nat :=
  if month = 2 then
    if year % 4 = 0 ∧ (year % 100 ≠ 0 ∨ year % 400 = 0) then 29 else 28
  else if month = 4 ∨ month = 6 ∨ month = 9 ∨ month = 11 then 30
  else 31

def date : Scan Unit := do
  let year ← bounded 4 0 9999
  Scan.exactly ['-']
  let month ← bounded 2 1 12
  Scan.exactly ['-']
  let _ ← bounded 2 1 (daysInMonth year month)

/-- A time of day; a minute may have a leap second. -/
def time : Scan Unit := do
  let _ ← bounded 2 0 23
  Scan.exactly [':']
  let _ ← bounded 2 0 59
  Scan.exactly [':']
  let _ ← bounded 2 0 60
  let _ ← Scan.maybe (do Scan.exactly ['.']; Scan.someRun DecimalNumeral.isDigit)

def offset : Scan Unit :=
  (do let _ ← Scan.one fun c => c == 'Z' || c == 'z') <|> do
    let _ ← Scan.one fun c => c == '+' || c == '-'
    let _ ← bounded 2 0 23
    Scan.exactly [':']
    let _ ← bounded 2 0 59

def moment : Scan Unit :=
  (do
    date
    let _ ← Scan.maybe do
      let _ ← Scan.one fun c => c == 'T' || c == 't' || c == ' '
      time
      Scan.maybe offset) <|> time

def scalar : Scan Scalar :=
  (do return .text (← quotedText)) <|>
    (do Scan.exactly "true".toList; return .boolean true) <|>
    (do Scan.exactly "false".toList; return .boolean false) <|>
    (do moment; return .moment) <|>
    (do return .float (← decimalFloat <|> specialFloat)) <|>
    (do return .integer (← integer))

end Botwright.Toml
