import Botwright.Proofs.Identifier.Tokens

/-!
# Identifiers read back

A numeral of low digits reads as the number modulo the power that its width holds. So the
hyphenated text of a unique identifier reads as that very identifier.
-/

namespace Botwright

namespace Text

private theorem digitValue?_digitChar_most :
    ∀ d < 36, digitValue? 36 (digitChar d) = some d := by decide

theorem digitValue?_digitChar {base d : Nat} (hb : base ≤ 36) (hd : d < base) :
    digitValue? base (digitChar d) = some d := by
  have hmost := digitValue?_digitChar_most d (by omega)
  rw [digitValue?, Option.filter_eq_some_iff] at hmost ⊢
  exact ⟨hmost.1, by simpa using hd⟩

private theorem foldlM_lowDigits {base : Nat} (hb : base ≤ 36) (hpos : 0 < base)
    (start n width : Nat) :
    (lowDigits base n width).foldlM
        (fun n c => (digitValue? base c).map (n * base + ·)) start =
      some (start * base ^ width + n % base ^ width) := by
  induction width generalizing n with
  | zero => simp [lowDigits, Nat.mod_one]
  | succ width ih =>
    have hdigit := digitValue?_digitChar hb (Nat.mod_lt n hpos)
    rw [lowDigits, List.foldlM_append, ih]
    simp only [Option.bind_eq_bind, Option.bind_some, List.foldlM_cons, List.foldlM_nil, hdigit,
      Option.map_some, Option.pure_def]
    rw [Nat.pow_succ', Nat.mod_mul, Nat.add_mul, Nat.mul_assoc, Nat.mul_comm (base ^ width),
      Nat.mul_comm (n / base % base ^ width), Nat.add_assoc, Nat.add_comm (n % base)]

private theorem readDigits?_lowDigits {base : Nat} (hb : base ≤ 36) (hpos : 0 < base) (n : Nat)
    {width : Nat} (hw : 0 < width) :
    readDigits? base (lowDigits base n width) = some (n % base ^ width) := by
  have hread := foldlM_lowDigits hb hpos 0 n width
  rw [Nat.zero_mul, Nat.zero_add] at hread
  cases hdigits : lowDigits base n width with
  | nil =>
    have hlength := length_lowDigits base n width
    rw [hdigits, List.length_nil] at hlength
    omega
  | cons c rest =>
    rw [hdigits] at hread
    exact hread

end Text

namespace Uuid

private theorem length_hyphenate (n : Nat) (rest : List Nat) (digits : List Char)
    (h : digits.length = n + rest.sum) :
    (hyphenate (n :: rest) digits).length = digits.length + rest.length := by
  induction rest generalizing n digits with
  | nil => simp [hyphenate, h]
  | cons m rest ih =>
    rw [List.sum_cons] at h
    have hdrop : (digits.drop n).length = m + rest.sum := by rw [List.length_drop]; omega
    rw [hyphenate, List.length_append, List.length_cons, ih m _ hdrop, List.length_take,
      List.length_cons]
    · omega
    · nofun

private theorem unhyphenate?_hyphenate (n : Nat) (rest : List Nat) (digits : List Char)
    (h : digits.length = n + rest.sum) :
    unhyphenate? (n :: rest) (hyphenate (n :: rest) digits) = some digits := by
  induction rest generalizing n digits with
  | nil =>
    have hlength : digits.length = n := h
    rw [hyphenate, List.take_of_length_le (Nat.le_of_eq hlength), unhyphenate?, if_pos hlength]
  | cons m rest ih =>
    rw [List.sum_cons] at h
    have hdrop : (digits.drop n).length = m + rest.sum := by rw [List.length_drop]; omega
    have htake : (digits.take n).length = n := by rw [List.length_take]; omega
    have hstep (tail : List Char) : unhyphenate? (n :: m :: rest) (digits.take n ++ '-' :: tail) =
        (unhyphenate? (m :: rest) tail).map (digits.take n ++ ·) := by
      rw [unhyphenate?, List.drop_left' htake, List.take_left' htake]
      · exact if_pos htake
      · nofun
    have hrest := ih m _ hdrop
    change unhyphenate? _ (digits.take n ++ '-' :: hyphenate (m :: rest) (digits.drop n)) = _
    simp [hstep, hrest]

/-- The hyphenated text reads as the identifier that it was written for. -/
@[simp] theorem ofText?_text (u : Uuid) : ofText? u.text = some u := by
  have hdigits : (Text.lowDigits 16 u.toNat 32).length = 32 := Text.length_lowDigits 16 u.toNat 32
  have hlength : (hyphenate groups (Text.lowDigits 16 u.toNat 32)).length = 36 := by
    rw [groups, length_hyphenate 8 _ _ hdigits, hdigits]
    rfl
  have hjoined : unhyphenate? groups (hyphenate groups (Text.lowDigits 16 u.toNat 32)) =
      some (Text.lowDigits 16 u.toNat 32) :=
    unhyphenate?_hyphenate 8 [4, 4, 4, 12] _ hdigits
  have hvalue : u.toNat % 16 ^ 32 = u.toNat := Nat.mod_eq_of_lt u.bits.isLt
  have hread : Text.readDigits? 16 (Text.lowDigits 16 u.toNat 32) = some (u.toNat % 16 ^ 32) :=
    Text.readDigits?_lowDigits (by decide) (by decide) u.toNat (by decide)
  rw [hvalue] at hread
  have hbare : ofBareDigits? (Text.lowDigits 16 u.toNat 32) = some u := by
    rw [ofBareDigits?, if_pos hdigits, hread, Option.map_some, ofNat, toNat, BitVec.ofNat_toNat,
      BitVec.setWidth_eq]
  simp [ofText?, text, hlength, ofHyphenated?, hjoined, hbare]

end Uuid
end Botwright
