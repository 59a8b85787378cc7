import Botwright.Text.Numeral
/-!
# Universally unique identifiers

A 128-bit value written as five groups of hexadecimal digits. Reading also takes the bare, the
braced and the `urn:uuid:` form, in either letter case.
-/
namespace Botwright

structure Uuid where
  bits : BitVec 128
deriving DecidableEq, Inhabited

namespace Uuid

def ofNat (n : Nat) : Uuid := ⟨BitVec.ofNat 128 n⟩

def toNat (u : Uuid) : Nat := u.bits.toNat

def groups : List Nat := [8, 4, 4, 4, 12]

def hyphenate : List Nat → List Char → List Char
  | [], _ => []
  | [n], digits => digits.take n
  | n :: rest, digits => digits.take n ++ '-' :: hyphenate rest (digits.drop n)

def text (u : Uuid) : String := String.ofList (hyphenate groups (Text.lowDigits 16 u.toNat 32))

/-- Removes the hyphens of the hyphenated form, which have to stand between the groups. -/
def unhyphenate? : List Nat → List Char → Option (List Char)
  | [], [] => some []
  | [], _ :: _ => none
  | [n], digits => if digits.length = n then some digits else none
  | n :: rest, digits =>
      match digits.drop n with
      | '-' :: tail =>
          if (digits.take n).length = n then (unhyphenate? rest tail).map (digits.take n ++ ·)
          else none
      | _ => none

def ofBareDigits? (digits : List Char) : Option Uuid :=
  if digits.length = 32 then (Text.readDigits? 16 digits).map ofNat else none

def ofHyphenated? (digits : List Char) : Option Uuid :=
  (unhyphenate? groups digits).bind ofBareDigits?

def ofText? (s : String) : Option Uuid :=
  let cs := s.toList
  if cs.length = 32 then ofBareDigits? cs
  else if cs.length = 36 then ofHyphenated? cs
  else match cs with
    | '{' :: rest =>
        if rest.getLast? = some '}' then ofHyphenated? rest.dropLast else none
    | 'u' :: 'r' :: 'n' :: ':' :: 'u' :: 'u' :: 'i' :: 'd' :: ':' :: rest => ofHyphenated? rest
    | _ => none

/-- The value with the version and variant bits of a random identifier. -/
def ofRandom (n : Nat) : Uuid :=
  let high := n / Nat.pow 2 80 % Nat.pow 2 48
  let middle := n / Nat.pow 2 64 % Nat.pow 2 12
  let low := n % Nat.pow 2 62
  ofNat (high * Nat.pow 2 80 + 4 * Nat.pow 2 76 + middle * Nat.pow 2 64 + 2 * Nat.pow 2 62 + low)

def version (u : Uuid) : Nat := u.toNat / Nat.pow 2 76 % 16

end Uuid
end Botwright
