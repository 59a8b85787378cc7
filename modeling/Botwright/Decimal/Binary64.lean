/-!
# Binary floating point

A 64-bit floating-point number is kept as its bits, so that equality is decidable and every law
can be stated on the significand and exponent. A ratio of naturals rounds to the nearest number,
a tie to the even significand.
-/
namespace Botwright

structure Binary64 where
  bits : UInt64
deriving DecidableEq, Inhabited

namespace Binary64

def negative (x : Binary64) : Bool := Nat.pow 2 63 ≤ x.bits.toNat

def exponentField (x : Binary64) : Nat := x.bits.toNat / Nat.pow 2 52 % 2048

def fractionField (x : Binary64) : Nat := x.bits.toNat % Nat.pow 2 52

def isFinite (x : Binary64) : Bool := x.exponentField < 2047

/-- A finite number is `significand * 2 ^ exponent` up to its sign. -/
def significand (x : Binary64) : Nat :=
  if x.exponentField = 0 then x.fractionField else x.fractionField + Nat.pow 2 52

def exponent (x : Binary64) : Int :=
  if x.exponentField = 0 then -1074 else (x.exponentField : Int) - 1075

def ofParts (negative : Bool) (magnitude : Nat) : Binary64 :=
  ⟨UInt64.ofNat ((if negative then Nat.pow 2 63 else 0) + magnitude)⟩

def infinity (negative : Bool) : Binary64 := ofParts negative (2047 * Nat.pow 2 52)

def notANumber : Binary64 := ⟨0x7ff8000000000000⟩

/-- `num / den` rounded to the nearest natural, a tie to the even one. -/
def roundRatio (num den : Nat) : Nat :=
  let quotient := num / den
  let twice := 2 * (num % den)
  if twice < den then quotient
  else if den < twice then quotient + 1
  else quotient + quotient % 2

def inUnits (num den : Nat) (unit : Int) : Nat × Nat :=
  match unit with
  | .ofNat k => (num, den * Nat.pow 2 k)
  | .negSucc k => (num * Nat.pow 2 (k + 1), den)

/-- The number nearest to `num / den`. -/
def ofRatio (negative : Bool) (num den : Nat) : Binary64 :=
  if num = 0 then ofParts negative 0
  else
    let guess : Int := max ((Nat.log2 num : Int) - (Nat.log2 den : Int) - 52) (-1074)
    let (n, d) := inUnits num den guess
    let unit := if n / d < Nat.pow 2 52 then max (guess - 1) (-1074) else guess
    let (n, d) := inUnits num den unit
    let rounded := roundRatio n d
    if rounded < Nat.pow 2 52 then ofParts negative rounded
    else
      let (rounded, unit) :=
        if rounded = Nat.pow 2 53 then (Nat.pow 2 52, unit + 1) else (rounded, unit)
      let field := (unit + 1075).toNat
      if 2047 ≤ field then infinity negative
      else ofParts negative (field * Nat.pow 2 52 + (rounded - Nat.pow 2 52))

end Binary64
end Botwright
