import Botwright.Decimal.Numeral
import Botwright.Json.Basic
/-!
# Plain scalars

What an unquoted scalar stands for: null, a boolean, a number or else a text. Integers have up to
128 bits; a run of digits with a leading zero is a text.
-/
namespace Botwright.Yaml

/-- The reading of a plain scalar. -/
inductive Plain where
  | null
  | bool (value : Bool)
  | int (value : Int)
  | float (value : Binary64)
  | text
deriving DecidableEq, Inhabited

def isNullWord (s : String) : Bool := ["null", "Null", "NULL", "~"].contains s

def bool? (s : String) : Option Bool :=
  if ["true", "True", "TRUE"].contains s then some true
  else if ["false", "False", "FALSE"].contains s then some false
  else none

def isZeroLed (cs : List Char) : Bool :=
  let digits := match cs with
    | '+' :: rest | '-' :: rest => rest
    | rest => rest
  digits.length > 1 && digits.head? == some '0' && digits.all DecimalNumeral.isDigit

def basedDigits? : List Char → Option (Nat × List Char)
  | '0' :: 'x' :: rest => some (16, rest)
  | '0' :: 'o' :: rest => some (8, rest)
  | '0' :: 'b' :: rest => some (2, rest)
  | _ => none

def magnitude? (zeroLed : Bool) (cs : List Char) : Option Nat :=
  match (basedDigits? cs).bind fun (base, digits) => Text.readDigits? base digits with
  | some n => some n
  | none => if zeroLed then none else Text.readDigits? 10 cs

/-- The integer of a scalar: at most 2^128 - 1 without a minus sign, at least -2^127 with one. -/
def int? (cs : List Char) : Option Int :=
  match cs with
  | '-' :: rest =>
      (magnitude? (isZeroLed cs) rest).bind fun n => if n ≤ Nat.pow 2 127 then some (-n) else none
  | '+' :: rest =>
      (magnitude? (isZeroLed cs) rest).bind fun n => if n < Nat.pow 2 128 then some n else none
  | _ => (magnitude? (isZeroLed cs) cs).bind fun n => if n < Nat.pow 2 128 then some n else none

def special? (s : String) : Option Binary64 :=
  if [".inf", ".Inf", ".INF", "+.inf", "+.Inf", "+.INF"].contains s then
    some (Binary64.infinity false)
  else if ["-.inf", "-.Inf", "-.INF"].contains s then some (Binary64.infinity true)
  else if [".nan", ".NaN", ".NAN"].contains s then some Binary64.notANumber
  else none

/-- A finite decimal; a numeral beyond the range of the format is a text. -/
def finite? (cs : List Char) : Option Binary64 :=
  let (negative, digits) := DecimalNumeral.splitSign cs
  (DecimalNumeral.ofChars? digits).bind fun n =>
    let x := (n.toDecimal negative).toBinary64
    if n.hasDigits && x.isFinite then some x else none

def float? (s : String) : Option Binary64 :=
  match special? s with
  | some x => some x
  | none => finite? s.toList

def resolve (s : String) : Plain :=
  if s.isEmpty || isNullWord s then .null
  else match bool? s with
    | some b => .bool b
    | none =>
        match int? s.toList with
        | some n => .int n
        | none =>
            if isZeroLed s.toList then .text
            else match float? s with
              | some x => .float x
              | none => .text

end Botwright.Yaml
