import Mathlib.Data.List.Basic

/-!
# Texts cut at a character

Paths, pointers and slugs are cut at one character each. They follow the splitting of the library,
whose laws then hold for all of them: no part holds the character, and nothing else is lost.
-/

namespace Botwright.Text

/-- What cuts at a character is told by what it does at the front of a text. -/
theorem eq_splitOn {sep : Char} {split : List Char → List (List Char)} (hnil : split [] = [[]])
    (hsep : ∀ rest, split (sep :: rest) = [] :: split rest)
    (hother : ∀ c rest part parts, c ≠ sep → split rest = part :: parts →
      split (c :: rest) = (c :: part) :: parts) (text : List Char) :
    split text = text.splitOn sep := by
  induction text with
  | nil => exact hnil
  | cons c rest ih =>
    rw [List.splitOn_cons_eq_if_modifyHead]
    by_cases hc : c = sep
    · rw [if_pos (beq_iff_eq.mpr hc), ← ih, hc, hsep]
    · obtain ⟨part, parts, hparts⟩ :=
        List.exists_cons_of_ne_nil (List.splitOn_ne_nil sep rest)
      rw [if_neg (mt beq_iff_eq.mp hc), hparts]
      exact hother c rest part parts hc (ih.trans hparts)

theorem notMem_of_mem_splitOn {sep : Char} {text part : List Char}
    (h : part ∈ text.splitOn sep) : sep ∉ part := by
  induction text generalizing part with
  | nil =>
    rw [List.splitOn_nil, List.mem_singleton] at h
    rw [h]
    exact List.not_mem_nil
  | cons c rest ih =>
    rw [List.splitOn_cons_eq_if_modifyHead] at h
    obtain ⟨first, others, hparts⟩ :=
      List.exists_cons_of_ne_nil (List.splitOn_ne_nil sep rest)
    rw [hparts] at h ih
    by_cases hc : c = sep
    · rw [if_pos (beq_iff_eq.mpr hc)] at h
      rcases List.mem_cons.mp h with rfl | h
      · exact List.not_mem_nil
      · exact ih h
    · rw [if_neg (mt beq_iff_eq.mp hc)] at h
      rcases List.mem_cons.mp h with rfl | h
      · exact List.not_mem_cons_of_ne_of_not_mem (Ne.symm hc) (ih List.mem_cons_self)
      · exact ih (List.mem_cons_of_mem _ h)

theorem mem_intercalate_iff {sep : List Char} {c : Char} (hc : c ∉ sep)
    (parts : List (List Char)) :
    c ∈ sep.intercalate parts ↔ ∃ part ∈ parts, c ∈ part := by
  induction parts with
  | nil => simp
  | cons part parts ih =>
    cases parts with
    | nil => simp
    | cons next parts =>
      rw [List.intercalate_cons_cons, List.mem_append, List.mem_append, or_iff_left hc, ih,
        List.exists_mem_cons_iff (a := part)]

theorem exists_mem_splitOn {sep c : Char} (hc : c ≠ sep) {text : List Char} (h : c ∈ text) :
    ∃ part ∈ text.splitOn sep, c ∈ part := by
  have hback : [sep].intercalate (text.splitOn sep) = text := List.intercalate_splitOn sep
  rw [← hback] at h
  exact (mem_intercalate_iff (mt List.mem_singleton.mp hc) _).mp h

end Botwright.Text
