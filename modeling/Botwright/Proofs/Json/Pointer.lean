import Botwright.Json.Pointer
import Botwright.Proofs.Text.Splitting
import Mathlib.Data.Nat.Digits.Defs

/-!
# Texts of pointers

The text of a pointer reads as the pointer itself: no slash is left in an escaped step, and the
escapes are undone one by one. The number of an item reads as its index.
-/

namespace Botwright.Json

def escapeStepChar (c : Char) : List Char :=
  if c = '~' then ['~', '0'] else if c = '/' then ['~', '1'] else [c]

private theorem escapeStep_eq (step : String) :
    escapeStep step = step.toList.flatMap escapeStepChar := rfl

private theorem notMem_escapeStep (step : String) : '/' ∉ escapeStep step := by
  rw [escapeStep_eq, List.mem_flatMap]
  rintro ⟨c, -, hc⟩
  rw [escapeStepChar] at hc
  split at hc
  · simp at hc
  · split at hc
    · simp at hc
    · rename_i hslash
      exact hslash (List.mem_singleton.mp hc).symm

private theorem unescapeStep_cons {c : Char} (h : c ≠ '~') (rest : List Char) :
    unescapeStep (c :: rest) = c :: unescapeStep rest := by
  conv_lhs => unfold unescapeStep
  split <;> simp_all

@[simp] theorem unescapeStep_escapeStep (step : String) :
    unescapeStep (escapeStep step) = step.toList := by
  rw [escapeStep_eq]
  induction step.toList with
  | nil => rfl
  | cons c cs ih =>
    rw [List.flatMap_cons]
    by_cases htilde : c = '~'
    · rw [htilde]
      exact congrArg (List.cons '~') ih
    · by_cases hslash : c = '/'
      · rw [hslash]
        exact congrArg (List.cons '/') ih
      · rw [escapeStepChar, if_neg htilde, if_neg hslash, List.singleton_append,
          unescapeStep_cons htilde, ih]

private theorem splitSteps_eq_splitOn (text : List Char) : splitSteps text = text.splitOn '/' := by
  apply Text.eq_splitOn rfl
  · intro rest
    rw [splitSteps, if_pos rfl]
  · intro c rest part parts hc hrest
    rw [splitSteps, if_neg hc, hrest]

private theorem splitSteps_escaped (step : String) (p : Pointer) :
    splitSteps (escapeStep step ++ p.flatMap fun step => '/' :: escapeStep step) =
      escapeStep step :: p.map escapeStep := by
  simp only [splitSteps_eq_splitOn]
  induction p generalizing step with
  | nil =>
    rw [List.flatMap_nil, List.append_nil, List.splitOn_eq_singleton (notMem_escapeStep step)]
    rfl
  | cons next p ih =>
    rw [List.flatMap_cons, List.cons_append,
      List.splitOn_append_cons_self_of_not_mem (notMem_escapeStep step), ih]
    rfl

/-- A pointer is told by its text. -/
@[simp] theorem pointer?_pointerText (p : Pointer) : pointer? (pointerText p) = some p := by
  cases p with
  | nil => rfl
  | cons step p =>
    have hsteps : ((step :: p).map escapeStep).map (String.ofList ∘ unescapeStep) = step :: p := by
      have hid : (String.ofList ∘ unescapeStep) ∘ escapeStep = id := by
        funext s
        simp
      simp [hid]
    have hsplit := splitSteps_escaped step p
    rw [pointer?, pointerText, String.toList_ofList]
    change some ((splitSteps (escapeStep step ++ p.flatMap _)).map _) = _
    rw [hsplit]
    exact congrArg some hsteps

theorem pointerText_inj {p q : Pointer} (h : pointerText p = pointerText q) : p = q := by
  have hread := congrArg pointer? h
  rw [pointer?_pointerText, pointer?_pointerText] at hread
  exact Option.some.inj hread

/-! ## Indices -/

private theorem digitValue?_digitChar_ten :
    ∀ d < 10, Text.digitValue? 10 (Nat.digitChar d) = some d ∧
      (0 < d → Nat.digitChar d ≠ '0') := by decide

private theorem foldlM_toDigits (n : Nat) :
    (Nat.toDigits 10 n).foldlM (fun n c => (Text.digitValue? 10 c).map (n * 10 + ·)) 0 =
      some n := by
  induction n using Nat.strongRecOn with
  | ind n ih =>
    rcases Nat.lt_or_ge n 10 with hn | hn
    · rw [Nat.toDigits_of_lt_base hn]
      simp [(digitValue?_digitChar_ten n hn).1]
    · have hlow := (digitValue?_digitChar_ten (n % 10) (Nat.mod_lt n (by decide))).1
      rw [Nat.toDigits_of_base_le (by decide) hn, List.foldlM_append, ih (n / 10) (by omega)]
      simp only [Option.bind_eq_bind, Option.bind_some, List.foldlM_cons, List.foldlM_nil, hlow,
        Option.map_some, Option.pure_def]
      congr 1
      omega

private theorem head?_toDigits {n : Nat} (h : 0 < n) : (Nat.toDigits 10 n).head? ≠ some '0' := by
  induction n using Nat.strongRecOn with
  | ind n ih =>
    rcases Nat.lt_or_ge n 10 with hn | hn
    · rw [Nat.toDigits_of_lt_base hn]
      intro he
      exact (digitValue?_digitChar_ten n hn).2 h (Option.some.inj he)
    · have hne : Nat.toDigits 10 (n / 10) ≠ [] :=
        List.ne_nil_of_length_pos Nat.length_toDigits_pos
      obtain ⟨c, cs, hcons⟩ := List.exists_cons_of_ne_nil hne
      have hhigh := ih (n / 10) (by omega) (by omega)
      rw [hcons] at hhigh
      rw [Nat.toDigits_of_base_le (by decide) hn, hcons]
      exact hhigh

@[simp] theorem index?_toString (n : Nat) : index? (toString n) = some n := by
  have hdigits : (toString n).toList = Nat.toDigits 10 n := by
    simp
  have hplain : ¬ ((Nat.toDigits 10 n).length > 1 ∧ (Nat.toDigits 10 n).head? = some '0') := by
    rintro ⟨hlength, hhead⟩
    rcases Nat.eq_zero_or_pos n with rfl | hn
    · rw [Nat.toDigits_zero] at hlength
      exact absurd hlength (by decide)
    · exact head?_toDigits hn hhead
  have hread := foldlM_toDigits n
  rw [index?, hdigits]
  simp only [if_neg hplain]
  cases hlist : Nat.toDigits 10 n with
  | nil => exact absurd hlist (List.ne_nil_of_length_pos Nat.length_toDigits_pos)
  | cons c cs =>
    rw [hlist] at hread
    exact hread

end Botwright.Json
