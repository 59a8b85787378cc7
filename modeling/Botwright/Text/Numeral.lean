/-!
# Positional numerals

Fixed-width numerals over the digits `0-9a-z`. A numeral keeps the low digits of a number and
drops the high ones, so two numbers share a numeral exactly when they agree modulo
`base ^ width`.
-/
namespace Botwright.Text

def digitAlphabet : List Char := "0123456789abcdefghijklmnopqrstuvwxyz".toList

def digitChar (digit : Nat) : Char := digitAlphabet.getD digit '0'

/-- The low `width` digits of `n`, most significant first. -/
def lowDigits (base : Nat) (n : Nat) : Nat → List Char
  | 0 => []
  | width + 1 => lowDigits base (n / base) width ++ [digitChar (n % base)]

def base36 (n width : Nat) : String := String.ofList (lowDigits 36 n width)

def hexadecimal (n width : Nat) : String := String.ofList (lowDigits 16 n width)

/-- The digits of `n` in `base`, without leading zeros; zero has no digits. -/
def significantDigits (base : Nat) (n : Nat) : Nat → List Char
  | 0 => []
  | limit + 1 =>
      if n = 0 then [] else significantDigits base (n / base) limit ++ [digitChar (n % base)]

def shortHexadecimal (n : Nat) : String :=
  if n = 0 then "0" else String.ofList (significantDigits 16 n (Nat.log2 n + 1))

def digitValue? (base : Nat) (c : Char) : Option Nat :=
  let value :=
    if '0' ≤ c ∧ c ≤ '9' then some (c.toNat - 48)
    else if 'a' ≤ c ∧ c ≤ 'z' then some (c.toNat - 87)
    else if 'A' ≤ c ∧ c ≤ 'Z' then some (c.toNat - 55)
    else none
  value.filter (· < base)

def readDigits? (base : Nat) : List Char → Option Nat
  | [] => none
  | digits => digits.foldlM (fun n c => (digitValue? base c).map (n * base + ·)) 0

@[simp] theorem length_lowDigits (base n width : Nat) :
    (lowDigits base n width).length = width := by
  induction width generalizing n with
  | zero => rfl
  | succ width ih => simp [lowDigits, ih]

end Botwright.Text
