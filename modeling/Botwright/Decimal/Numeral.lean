import Botwright.Decimal.Shortest
/-!
# Decimal numerals as written

An unsigned numeral splits into integer digits, an optional fraction and an optional exponent.
The formats that read numbers differ only in which of these parts they require.
-/
namespace Botwright

structure DecimalNumeral where
  whole : List Char
  fraction : Option (List Char)
  scale : Option (Bool × List Char)
deriving Inhabited

namespace DecimalNumeral

def isDigit (c : Char) : Bool := '0' ≤ c && c ≤ '9'

def splitSign : List Char → Bool × List Char
  | '-' :: rest => (true, rest)
  | '+' :: rest => (false, rest)
  | rest => (false, rest)

def scaleOf? (whole : List Char) (fraction : Option (List Char)) : List Char → Option DecimalNumeral
  | [] => some ⟨whole, fraction, none⟩
  | c :: rest =>
      if c = 'e' ∨ c = 'E' then
        let (negative, digits) := splitSign rest
        if digits.all isDigit then some ⟨whole, fraction, some (negative, digits)⟩ else none
      else none

def ofChars? (cs : List Char) : Option DecimalNumeral :=
  let whole := cs.takeWhile isDigit
  match cs.dropWhile isDigit with
  | '.' :: rest => scaleOf? whole (some (rest.takeWhile isDigit)) (rest.dropWhile isDigit)
  | rest => scaleOf? whole none rest

def isInteger (n : DecimalNumeral) : Bool := n.fraction.isNone && n.scale.isNone

/-- Some digit stands in the mantissa, and some digit in an exponent that is present. -/
def hasDigits (n : DecimalNumeral) : Bool :=
  (!n.whole.isEmpty || !(n.fraction.getD []).isEmpty) &&
    (n.scale.map fun (_, digits) => !digits.isEmpty).getD true

/-- Every part that is present has digits, and the integer part has no needless zero in front. -/
def isStrict (n : DecimalNumeral) : Bool :=
  !n.whole.isEmpty && (n.whole.length == 1 || n.whole.head? != some '0') &&
    (n.fraction.map fun digits => !digits.isEmpty).getD true &&
    (n.scale.map fun (_, digits) => !digits.isEmpty).getD true

def digitsValue (digits : List Char) : Nat :=
  digits.foldl (fun n c => n * 10 + (c.toNat - 48)) 0

def toDecimal (negative : Bool) (n : DecimalNumeral) : Decimal :=
  let fraction := n.fraction.getD []
  let scale : Int := match n.scale with
    | none => 0
    | some (true, digits) => -(digitsValue digits)
    | some (false, digits) => digitsValue digits
  ⟨negative, digitsValue (n.whole ++ fraction), scale - fraction.length⟩

end DecimalNumeral
end Botwright
