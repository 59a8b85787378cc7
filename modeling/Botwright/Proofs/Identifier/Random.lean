import Botwright.Identifier.Random
import Botwright.Proofs.Identifier.Tokens

/-!
# Tokens of random sources

A random source keeps what it has issued and passes over it, so its tokens never repeat, whatever
values it reads. It can go on as long as some numeral of the fixed width is left.
-/

namespace Botwright.RandomIds

open IdSource

/-- The first value whose token is new is taken, and those in front of it are passed over. -/
theorem firstFresh_spec (issued : List String) (pool rest : List Nat) (t : String)
    (h : firstFresh issued pool = some (t, rest)) :
    ∃ passed value, pool = passed ++ value :: rest ∧ t = tokenOf value ∧ t ∉ issued ∧
      ∀ v ∈ passed, tokenOf v ∈ issued := by
  induction pool with
  | nil => cases h
  | cons value pool ih =>
    rw [firstFresh] at h
    by_cases hv : tokenOf value ∈ issued
    · rw [if_pos hv] at h
      obtain ⟨passed, fresh, rfl, ht, hnew, hpassed⟩ := ih h
      refine ⟨value :: passed, fresh, rfl, ht, hnew, ?_⟩
      intro v hm
      rcases List.mem_cons.mp hm with rfl | hm
      · exact hv
      · exact hpassed v hm
    · rw [if_neg hv] at h
      cases h
      exact ⟨[], value, rfl, rfl, hv, fun v hm => absurd hm List.not_mem_nil⟩

theorem firstFresh_of_passed {issued : List String} {passed : List Nat} {value : Nat}
    (hpassed : ∀ v ∈ passed, tokenOf v ∈ issued) (hnew : tokenOf value ∉ issued)
    (rest : List Nat) :
    firstFresh issued (passed ++ value :: rest) = some (tokenOf value, rest) := by
  induction passed with
  | nil => rw [List.nil_append, firstFresh, if_neg hnew]
  | cons v passed ih =>
    rw [List.cons_append, firstFresh, if_pos (hpassed v List.mem_cons_self)]
    exact ih fun w hw => hpassed w (List.mem_cons_of_mem v hw)

/-- More numerals are tried than tokens are issued, so one of them is new. -/
theorem leastFresh_spec (issued : List String) (h : issued.length < 36 ^ tokenLength) :
    leastFresh issued ∉ issued ∧ ∃ n, leastFresh issued = tokenOf n := by
  have hnodup : ((List.range (issued.length + 1)).map tokenOf).Nodup := by
    apply List.Nodup.map_on _ List.nodup_range
    intro m hm n hn he
    rw [List.mem_range] at hm hn
    have hmod := (tokenOf_inj m n).mp he
    rwa [Nat.mod_eq_of_lt (by omega), Nat.mod_eq_of_lt (by omega)] at hmod
  unfold leastFresh
  cases hf : ((List.range (issued.length + 1)).map tokenOf).find?
      (fun t => !issued.contains t) with
  | none =>
    have hsub : (List.range (issued.length + 1)).map tokenOf ⊆ issued := by
      intro t ht
      simpa using List.find?_eq_none.mp hf t ht
    have hlen := hnodup.length_le_of_subset hsub
    rw [List.length_map, List.length_range] at hlen
    omega
  | some t =>
    obtain ⟨n, _, rfl⟩ := List.mem_map.mp (List.mem_of_find?_eq_some hf)
    exact ⟨by simpa using List.find?_some hf, n, rfl⟩

theorem token_eq (s : RandomIds) :
    token s = s.token?.getD
      (leastFresh s.issued, { s with issued := leastFresh s.issued :: s.issued }) := rfl

theorem uuid_eq (s : RandomIds) : uuid s = s.uuid?.getD (Uuid.ofRandom 0, s) := rfl

@[simp] theorem token_issued (s : RandomIds) : (token s).2.issued = (token s).1 :: s.issued := by
  rw [token_eq, token?]
  cases firstFresh s.issued s.pool <;> rfl

@[simp] theorem uuid_issued (s : RandomIds) : (uuid s).2.issued = s.issued := by
  rw [uuid_eq, uuid?]
  cases s.pool <;> rfl

theorem token_fresh_of_isSome (s : RandomIds) (h : s.token?.isSome) :
    (token s).1 ∉ s.issued ∧ IsToken (token s).1 := by
  rw [token_eq]
  rw [token?, Option.isSome_map] at h
  obtain ⟨⟨t, rest⟩, hf⟩ := Option.isSome_iff_exists.mp h
  obtain ⟨_, value, _, rfl, hnew, _⟩ := firstFresh_spec s.issued s.pool rest t hf
  rw [token?, hf, Option.map_some, Option.getD_some]
  exact ⟨hnew, isToken_tokenOf value⟩

private theorem token_fresh (s : RandomIds) (h : s.issued.length < 36 ^ tokenLength) :
    (token s).1 ∉ s.issued ∧ IsToken (token s).1 := by
  by_cases hpool : s.token?.isSome
  · exact token_fresh_of_isSome s hpool
  · obtain ⟨hnew, n, hn⟩ := leastFresh_spec s.issued h
    rw [token_eq, Option.not_isSome_iff_eq_none.mp hpool, Option.getD_none]
    exact ⟨hnew, hn ▸ isToken_tokenOf n⟩

theorem after_issued (draws : List Draw) (s : RandomIds) :
    (after draws s).issued = (tokens draws s).reverse ++ s.issued := by
  induction draws generalizing s with
  | nil => rfl
  | cons draw draws ih =>
    cases draw with
    | token =>
      change (after draws (token s).2).issued =
        ((token s).1 :: tokens draws (token s).2).reverse ++ s.issued
      simp [ih]
    | uuid =>
      change (after draws (uuid s).2).issued = (tokens draws (uuid s).2).reverse ++ _
      simp [ih]

private theorem length_issued_le (draws : List Draw) (s : RandomIds) :
    s.issued.length ≤ (after draws s).issued.length := by
  rw [after_issued, List.length_append]
  omega

/-- Every draw keeps the issued tokens distinct and well formed. -/
theorem issued_proper (draws : List Draw) (s : RandomIds) (hs : ProperTokens s.issued)
    (h : (after draws s).issued.length ≤ 36 ^ tokenLength) :
    ProperTokens (after draws s).issued := by
  induction draws generalizing s with
  | nil => exact hs
  | cons draw draws ih =>
    cases draw with
    | uuid =>
      apply ih (uuid s).2 _ h
      rwa [uuid_issued]
    | token =>
      have hlen : s.issued.length < 36 ^ tokenLength := by
        have hle := Nat.le_trans (length_issued_le draws (token s).2) h
        rw [token_issued, List.length_cons] at hle
        exact hle
      obtain ⟨hnew, hwell⟩ := token_fresh s hlen
      apply ih (token s).2 _ h
      rw [token_issued]
      exact hs.cons hnew hwell

/-- A fresh random source gives proper tokens, whatever its pool holds. -/
theorem tokens_ofPool_proper (draws : List Draw) (pool : List Nat)
    (h : (after draws (ofPool pool)).issued.length ≤ 36 ^ tokenLength) :
    ProperTokens (tokens draws (ofPool pool)) := by
  have hstart : ProperTokens (ofPool pool).issued :=
    ⟨List.nodup_nil, fun t ht => absurd ht List.not_mem_nil⟩
  have hproper := issued_proper draws (ofPool pool) hstart h
  rw [after_issued] at hproper
  change ProperTokens ((tokens draws (ofPool pool)).reverse ++ []) at hproper
  rwa [List.append_nil, properTokens_reverse] at hproper

end Botwright.RandomIds
