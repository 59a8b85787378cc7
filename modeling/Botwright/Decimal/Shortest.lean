import Botwright.Text.Numeral
import Botwright.Decimal.Binary64
/-!
# Decimal text of floating-point numbers

Reading rounds a decimal to the nearest number. Writing takes the fewest significant digits that
read back, and of those the nearest decimal.
-/
namespace Botwright

/-- The decimal `digits * 10 ^ exponent` with a sign. -/
structure Decimal where
  negative : Bool
  digits : Nat
  exponent : Int
deriving DecidableEq, Inhabited

namespace Decimal

/-- The nearest floating-point number. Exponents far outside the range of the format are settled
without computing the power of ten. -/
def toBinary64 (d : Decimal) : Binary64 :=
  let size : Int := (Nat.log2 d.digits : Int) / 3
  if d.digits = 0 then Binary64.ofParts d.negative 0
  else if 400 < d.exponent then Binary64.infinity d.negative
  else if d.exponent + size < -400 then Binary64.ofParts d.negative 0
  else match d.exponent with
    | .ofNat k => Binary64.ofRatio d.negative (d.digits * Nat.pow 10 k) 1
    | .negSucc k => Binary64.ofRatio d.negative d.digits (Nat.pow 10 (k + 1))

end Decimal

namespace Binary64

def ratio (x : Binary64) : Nat × Nat :=
  match x.exponent with
  | .ofNat k => (x.significand * Nat.pow 2 k, 1)
  | .negSucc k => (x.significand, Nat.pow 2 (k + 1))

/-- The two neighbours of `num / den` on the grid of multiples of `10 ^ place`, nearest first; a
tie puts the even multiple first. -/
def gridNeighbours (num den : Nat) (place : Int) : List Nat :=
  let (n, d) := match place with
    | .ofNat k => (num, den * Nat.pow 10 k)
    | .negSucc k => (num * Nat.pow 10 (k + 1), den)
  let below := n / d
  let twice := 2 * (n % d)
  if twice < d ∨ (twice = d ∧ below % 2 = 0) then [below, below + 1] else [below + 1, below]

/-- The place of the leading decimal digit of `num / den`, searched downward from `place`. -/
def leadingPlace (num den : Nat) : Nat → Int → Int
  | 0, place => place
  | steps + 1, place =>
      let reached := match place with
        | .ofNat k => decide (den * Nat.pow 10 k ≤ num)
        | .negSucc k => decide (den ≤ num * Nat.pow 10 (k + 1))
      if reached then place else leadingPlace num den steps (place - 1)

def shortestFrom (x : Binary64) (num den : Nat) (lead : Int) : Nat → Nat → Decimal
  | 0, _ => ⟨x.negative, 0, 0⟩
  | steps + 1, count =>
      let place := lead - count + 1
      let hit := (gridNeighbours num den place).find? fun n =>
        Decimal.toBinary64 ⟨x.negative, n, place⟩ == x
      match hit with
      | some n => ⟨x.negative, n, place⟩
      | none => shortestFrom x num den lead steps (count + 1)

def trimZeros (d : Decimal) : Nat → Decimal
  | 0 => d
  | steps + 1 =>
      if d.digits % 10 = 0 ∧ d.digits ≠ 0 then
        trimZeros { d with digits := d.digits / 10, exponent := d.exponent + 1 } steps
      else d

/-- The decimal with the fewest digits that reads back as the finite number `x`. -/
def shortest (x : Binary64) : Decimal :=
  if x.significand = 0 then ⟨x.negative, 0, 0⟩
  else
    let (num, den) := x.ratio
    let estimate : Int := ((Nat.log2 num : Int) - (Nat.log2 den : Int) + 1) * 30103 / 100000 + 1
    trimZeros (shortestFrom x num den (leadingPlace num den 4 estimate) 17 1) 20

end Binary64

structure DecimalStyle where
  plusSign : Bool
deriving DecidableEq

namespace Decimal

/-- Positional up to sixteen integer digits and down to five places, scientific beyond; a
positional number always has a point. -/
def write (style : DecimalStyle) (d : Decimal) : String :=
  let sign := if d.negative then "-" else ""
  if d.digits = 0 then sign ++ "0.0"
  else
    let text := (toString d.digits).toList
    let length : Int := text.length
    let point := length + d.exponent
    let body :=
      if 0 ≤ d.exponent ∧ point ≤ 16 then
        text ++ List.replicate d.exponent.toNat '0' ++ ['.', '0']
      else if 0 < point ∧ point ≤ 16 then
        text.take point.toNat ++ '.' :: text.drop point.toNat
      else if -5 < point ∧ point ≤ 0 then
        ['0', '.'] ++ List.replicate (-point).toNat '0' ++ text
      else
        let scale := point - 1
        let mantissa := match text with
          | [d] => [d]
          | d :: rest => d :: '.' :: rest
          | [] => []
        let mark := if scale < 0 then ['e', '-'] else if style.plusSign then ['e', '+'] else ['e']
        mantissa ++ mark ++ (toString scale.natAbs).toList
    sign ++ String.ofList body

end Decimal
end Botwright
