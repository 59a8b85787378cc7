import Botwright.Proofs.Identifier.Draws
import Mathlib.Algebra.Ring.Nat

/-!
# Tokens of sequential sources

A token keeps the low base-36 digits of a number. A sequential source numbers its draws, so it
repeats no token before its count has passed every numeral of that width.
-/

namespace Botwright

namespace Text

private theorem digitChar_values :
    ∀ d < 36, (digitChar d).isDigit || (digitChar d).isLower := by decide

private theorem digitChar_distinct :
    ∀ d < 36, ∀ e < 36, digitChar d = digitChar e → d = e := by decide

/-- Two numbers share their low digits exactly when they agree modulo the power. -/
theorem lowDigits_inj (width m n : Nat) :
    lowDigits 36 m width = lowDigits 36 n width ↔ m % 36 ^ width = n % 36 ^ width := by
  induction width generalizing m n with
  | zero => simp [lowDigits, Nat.mod_one]
  | succ width ih =>
    have hm := Nat.mod_lt m (show 0 < 36 by decide)
    have hn := Nat.mod_lt n (show 0 < 36 by decide)
    rw [Nat.pow_succ', Nat.mod_mul, Nat.mod_mul]
    constructor
    · intro h
      obtain ⟨hhigh, hlow⟩ := List.append_inj' h rfl
      have hdigit := digitChar_distinct _ hm _ hn (List.cons.inj hlow).1
      rw [hdigit, (ih _ _).mp hhigh]
    · intro h
      have hdigit : m % 36 = n % 36 := by omega
      have hhigh : m / 36 % 36 ^ width = n / 36 % 36 ^ width := by omega
      rw [lowDigits, lowDigits, (ih _ _).mpr hhigh, hdigit]

theorem mem_lowDigits (n width : Nat) (c : Char) (hc : c ∈ lowDigits 36 n width) :
    c.isDigit || c.isLower := by
  induction width generalizing n with
  | zero => simp [lowDigits] at hc
  | succ width ih =>
    rw [lowDigits, List.mem_append, List.mem_singleton] at hc
    rcases hc with hc | rfl
    · exact ih _ hc
    · exact digitChar_values _ (Nat.mod_lt _ (by decide))

end Text

/-- A token is a text of the fixed length over the digits `0-9a-z`. -/
def IsToken (t : String) : Prop :=
  t.length = tokenLength ∧ ∀ c ∈ t.toList, c.isDigit || c.isLower

/-- What a source owes its users: well-formed tokens without repetition. -/
def ProperTokens (ts : List String) : Prop := ts.Nodup ∧ ∀ t ∈ ts, IsToken t

theorem ProperTokens.cons {t : String} {ts : List String} (h : ProperTokens ts) (hnew : t ∉ ts)
    (ht : IsToken t) : ProperTokens (t :: ts) := by
  refine ⟨List.nodup_cons.mpr ⟨hnew, h.1⟩, ?_⟩
  intro u hu
  rcases List.mem_cons.mp hu with rfl | hu
  · exact ht
  · exact h.2 u hu

@[simp] theorem properTokens_reverse (ts : List String) :
    ProperTokens ts.reverse ↔ ProperTokens ts := by
  simp [ProperTokens]

theorem isToken_tokenOf (n : Nat) : IsToken (tokenOf n) := by
  constructor
  · simp [tokenOf, Text.base36]
  · intro c hc
    rw [tokenOf, Text.base36, String.toList_ofList] at hc
    exact Text.mem_lowDigits n _ c hc

theorem tokenOf_inj (m n : Nat) :
    tokenOf m = tokenOf n ↔ m % 36 ^ tokenLength = n % 36 ^ tokenLength := by
  rw [tokenOf, tokenOf, Text.base36, Text.base36, String.ofList_inj, Text.lowDigits_inj]

namespace SequentialIds

open IdSource

theorem after_eq (draws : List Draw) (c : Nat) :
    after draws (⟨c⟩ : SequentialIds) = ⟨c + draws.length⟩ := by
  induction draws generalizing c with
  | nil => rfl
  | cons draw draws ih =>
    have hstep : after (draw :: draws) (⟨c⟩ : SequentialIds) = after draws ⟨c + 1⟩ := by
      cases draw <;> rfl
    rw [hstep, ih, List.length_cons, Nat.add_assoc, Nat.add_comm 1]

/-- A draw with the number that it used and the text that it gave. -/
structure Numbered where
  kind : Draw
  number : Nat
  text : String

def numbered : List Draw → SequentialIds → List Numbered
  | [], _ => []
  | kind :: draws, s =>
      ⟨kind, (draw kind s).2.drawn, (draw kind s).1⟩ :: numbered draws (draw kind s).2

@[simp] theorem draw_source (kind : Draw) (s : SequentialIds) :
    (draw kind s).2 = ⟨s.drawn + 1⟩ := by
  cases kind <;> rfl

@[simp] theorem map_kind_numbered (draws : List Draw) (s : SequentialIds) :
    (numbered draws s).map Numbered.kind = draws := by
  induction draws generalizing s with
  | nil => rfl
  | cons kind draws ih => rw [numbered, List.map_cons, ih]

@[simp] theorem map_number_numbered (draws : List Draw) (s : SequentialIds) :
    (numbered draws s).map Numbered.number = List.range' (s.drawn + 1) draws.length := by
  induction draws generalizing s with
  | nil => rfl
  | cons kind draws ih =>
    rw [numbered, List.map_cons, ih, draw_source, List.length_cons, List.range'_succ]

/-- The tokens are the texts of the draws of that kind. -/
theorem tokens_eq_numbered (draws : List Draw) (s : SequentialIds) :
    tokens draws s = ((numbered draws s).filter (·.kind = .token)).map Numbered.text := by
  induction draws generalizing s with
  | nil => rfl
  | cons kind draws ih =>
    cases kind with
    | token =>
      simp only [tokens, numbered, List.filter_cons, decide_true, if_true, List.map_cons, ih]
      rfl
    | uuid =>
      simp only [tokens, numbered, List.filter_cons, reduceCtorEq, decide_false,
        Bool.false_eq_true, if_false, ih]
      rfl

section Numbered

variable {draws : List Draw} {s : SequentialIds} {x y : Numbered}

private theorem text_of_mem_numbered (hx : x ∈ numbered draws s) :
    (x.kind = .token → x.text = tokenOf x.number) ∧
      (x.kind = .uuid → x.text = (Uuid.ofNat x.number).text) := by
  induction draws generalizing s with
  | nil => cases hx
  | cons kind draws ih =>
    rw [numbered, List.mem_cons] at hx
    rcases hx with rfl | hx
    · cases kind with
      | token => simp [draw, token]
      | uuid => simp [draw, uuid]
    · exact ih hx

private theorem number_of_mem_numbered (hx : x ∈ numbered draws s) :
    s.drawn < x.number ∧ x.number ≤ s.drawn + draws.length := by
  have hnumber : x.number ∈ (numbered draws s).map Numbered.number := List.mem_map_of_mem hx
  rw [map_number_numbered, List.mem_range'_1] at hnumber
  omega

theorem eq_of_number_eq (hx : x ∈ numbered draws s) (hy : y ∈ numbered draws s)
    (h : x.number = y.number) : x = y := by
  have hnodup : ((numbered draws s).map Numbered.number).Nodup := by
    rw [map_number_numbered]
    exact List.nodup_range'
  exact List.inj_on_of_nodup_map hnodup hx hy h

theorem text_eq_iff (hx : x ∈ numbered draws s) (hy : y ∈ numbered draws s)
    (hxtoken : x.kind = .token) (hytoken : y.kind = .token) :
    x.text = y.text ↔ x.number % 36 ^ tokenLength = y.number % 36 ^ tokenLength := by
  rw [(text_of_mem_numbered hx).1 hxtoken, (text_of_mem_numbered hy).1 hytoken, tokenOf_inj]

end Numbered

/-- Within one period no token repeats, wherever the count stands. -/
theorem tokens_nodup (draws : List Draw) (s : SequentialIds)
    (h : draws.length ≤ 36 ^ tokenLength) : (tokens draws s).Nodup := by
  have hnumbered : (numbered draws s).Nodup := by
    apply List.Nodup.of_map Numbered.number
    rw [map_number_numbered]
    exact List.nodup_range'
  rw [tokens_eq_numbered]
  apply List.Nodup.map_on _ (hnumbered.filter _)
  intro x hx y hy htext
  obtain ⟨hx, hxtoken⟩ := List.mem_filter.mp hx
  obtain ⟨hy, hytoken⟩ := List.mem_filter.mp hy
  have hmod := (text_eq_iff hx hy (of_decide_eq_true hxtoken) (of_decide_eq_true hytoken)).mp htext
  have hxbounds := number_of_mem_numbered hx
  have hybounds := number_of_mem_numbered hy
  -- numbers that agree modulo the period and are less than a period apart are equal
  have hforth := Nat.sub_mod_eq_zero_of_mod_eq hmod
  have hback := Nat.sub_mod_eq_zero_of_mod_eq hmod.symm
  rw [Nat.mod_eq_of_lt (by omega)] at hforth hback
  apply eq_of_number_eq hx hy
  omega

theorem tokens_proper (draws : List Draw) (c : Nat)
    (h : c + draws.length ≤ 36 ^ tokenLength) :
    ProperTokens (tokens draws (⟨c⟩ : SequentialIds)) := by
  refine ⟨tokens_nodup draws ⟨c⟩ (by omega), ?_⟩
  intro t ht
  rw [tokens_eq_numbered] at ht
  obtain ⟨x, hx, rfl⟩ := List.mem_map.mp ht
  obtain ⟨hx, hxtoken⟩ := List.mem_filter.mp hx
  rw [(text_of_mem_numbered hx).1 (of_decide_eq_true hxtoken)]
  exact isToken_tokenOf x.number

end SequentialIds
end Botwright
