import Botwright.Proofs.Identifier.Texts
import Mathlib.Data.Nat.Digits.Defs
import Mathlib.Data.Int.ModEq

/-!
# The period of sequential tokens

A numeral of fixed width has the value of its number modulo the power of the width. A sequential
source gives each of its draws the next number, whatever is drawn, so its tokens come again with
that period and not within it.
-/

namespace Botwright

namespace Text

/-- The value of digits as a numeral, most significant first; every character has to be a digit. -/
def numeralValue? (base : Nat) (digits : List Char) : Option Nat :=
  (digits.mapM (digitValue? base)).map fun values => Nat.ofDigits base values.reverse

private theorem numeralValue?_concat {base value digit : Nat} {digits : List Char} {c : Char}
    (hdigits : numeralValue? base digits = some value) (hc : digitValue? base c = some digit) :
    numeralValue? base (digits ++ [c]) = some (digit + base * value) := by
  rw [numeralValue?, Option.map_eq_some_iff] at hdigits
  obtain ⟨values, hvalues, rfl⟩ := hdigits
  have hlast : [c].mapM (digitValue? base) = some [digit] := by simp [hc]
  have hall : (digits ++ [c]).mapM (digitValue? base) = some (values ++ [digit]) := by
    simp [List.mapM_append, hvalues, hlast]
  rw [numeralValue?, hall, Option.map_some, List.reverse_append, List.reverse_singleton,
    List.singleton_append, Nat.ofDigits_cons]

private theorem numeralValue?_lowDigits {base : Nat} (hb : base ≤ 36) (hpos : 0 < base)
    (n width : Nat) :
    numeralValue? base (lowDigits base n width) = some (n % base ^ width) := by
  induction width generalizing n with
  | zero => simp [lowDigits, numeralValue?, Nat.mod_one]
  | succ width ih =>
    have hdigit := digitValue?_digitChar hb (Nat.mod_lt n hpos)
    have hvalue := numeralValue?_concat (ih (n / base)) hdigit
    rw [lowDigits, hvalue, Nat.pow_succ', Nat.mod_mul]

end Text

namespace SequentialIds

open IdSource

/-- Numerals have their width, their digits and the value of their number modulo the power of the
width. So a sequential source, which gives every draw the next number, gives two equal tokens
exactly for numbers that agree modulo that power, none of them twice within it, and never the
number of a token to a unique identifier. -/
theorem sequential_tokens_recur :
    (∀ n width, (Text.base36 n width).length = width ∧
      (∀ c ∈ (Text.base36 n width).toList, c.isDigit || c.isLower) ∧
      Text.numeralValue? 36 (Text.base36 n width).toList = some (n % 36 ^ width)) ∧
    ∀ (draws : List Draw) (s : SequentialIds),
      (numbered draws s).map Numbered.kind = draws ∧
      (numbered draws s).map Numbered.number = List.range' (s.drawn + 1) draws.length ∧
      (∀ x ∈ numbered draws s, ∀ y ∈ numbered draws s, x.kind = .token → y.kind = .token →
        (x.text = y.text ↔ x.number ≡ y.number [MOD 36 ^ 8])) ∧
      (∀ x ∈ numbered draws s, ∀ y ∈ numbered draws s, x.kind = .token → y.kind = .uuid →
        x.number ≠ y.number) ∧
      (draws.length ≤ 36 ^ 8 → (tokens draws s).Nodup) := by
  constructor
  · intro n width
    rw [Text.base36, String.length_ofList, String.toList_ofList]
    refine ⟨Text.length_lowDigits 36 n width, Text.mem_lowDigits n width, ?_⟩
    exact Text.numeralValue?_lowDigits (by decide) (by decide) n width
  · intro draws s
    refine ⟨map_kind_numbered draws s, map_number_numbered draws s, ?_, ?_, tokens_nodup draws s⟩
    · intro x hx y hy hxtoken hytoken
      exact text_eq_iff hx hy hxtoken hytoken
    · intro x hx y hy hxtoken hyuuid hnumber
      rw [eq_of_number_eq hx hy hnumber, hyuuid] at hxtoken
      cases hxtoken

/-- One draw more than a period gives the first token again, and a few draws of both kinds give
texts and numbers of their own. -/
theorem first_token_recurs :
    (∃ x ∈ numbered (List.replicate (36 ^ 8 + 1) .token) fresh,
      ∃ y ∈ numbered (List.replicate (36 ^ 8 + 1) .token) fresh,
        x.number = 1 ∧ y.number = 36 ^ 8 + 1 ∧ x.text = y.text) ∧
    (tokens [.token, .uuid, .token] fresh).Nodup ∧
    ∀ x ∈ numbered [.token, .uuid, .token] fresh, x.kind = .token → x.number ≠ 2 := by
  obtain ⟨_, hsequential⟩ := sequential_tokens_recur
  obtain ⟨hkinds, hnumbers, hrecur, _, _⟩ :=
    hsequential (List.replicate (36 ^ 8 + 1) .token) fresh
  obtain ⟨_, _, _, hother, hnodup⟩ := hsequential [.token, .uuid, .token] fresh
  rw [List.length_replicate] at hnumbers
  have htoken : ∀ x ∈ numbered (List.replicate (36 ^ 8 + 1) .token) fresh, x.kind = .token := by
    intro x hx
    have hkind : x.kind ∈ (numbered (List.replicate (36 ^ 8 + 1) .token) fresh).map
        Numbered.kind := List.mem_map_of_mem hx
    rw [hkinds] at hkind
    exact List.eq_of_mem_replicate hkind
  have hdrawn : ∀ n, 1 ≤ n → n ≤ 36 ^ 8 + 1 →
      ∃ x ∈ numbered (List.replicate (36 ^ 8 + 1) .token) fresh, x.number = n := by
    intro n hfirst hlast
    have hn : n ∈ List.range' (fresh.drawn + 1) (36 ^ 8 + 1) := by
      rw [List.mem_range'_1]
      exact ⟨hfirst, by rw [fresh]; omega⟩
    rw [← hnumbers] at hn
    exact List.mem_map.mp hn
  obtain ⟨x, hx, hxnumber⟩ := hdrawn 1 (Nat.le_refl 1) (by omega)
  obtain ⟨y, hy, hynumber⟩ := hdrawn (36 ^ 8 + 1) (by omega) (Nat.le_refl _)
  refine ⟨⟨x, hx, y, hy, hxnumber, hynumber, ?_⟩, hnodup (by decide), ?_⟩
  · apply (hrecur x hx y hy (htoken x hx) (htoken y hy)).mpr
    rw [hxnumber, hynumber]
    exact (Nat.add_modEq_left (n := 36 ^ 8)).symm
  · intro z hz hztoken
    have hsecond : ⟨.uuid, 2, (Uuid.ofNat 2).text⟩ ∈ numbered [.token, .uuid, .token] fresh :=
      List.mem_cons_of_mem _ List.mem_cons_self
    exact hother z hz _ hsecond hztoken rfl

end SequentialIds
end Botwright
