import Botwright.Files.Path
import Botwright.Proofs.Text.Splitting

/-!
# The texts of paths

The path above another is told by the parts of the other: its steps begin the steps of the other,
both begin at the same place, and it carries no slash at its end unless it is the root.
-/

namespace Botwright.Path

/-! ## Parts -/

theorem split_eq_splitOn (text : List Char) : split text = text.splitOn '/' := by
  apply Text.eq_splitOn rfl
  · intro rest
    rw [split, if_pos rfl]
  · intro c rest part parts hc hrest
    rw [split, if_neg hc, hrest]

private theorem split_append_slash (before after : List Char) :
    split (before ++ '/' :: after) = split before ++ split after := by
  simp only [split_eq_splitOn]
  exact List.splitOn_append_cons_self before after

private theorem split_of_notMem {part : List Char} (h : '/' ∉ part) : split part = [part] := by
  rw [split_eq_splitOn, List.splitOn_eq_singleton h]

private theorem exists_split (text : List Char) : ∃ first rest, split text = first :: rest := by
  rw [split_eq_splitOn]
  exact List.exists_cons_of_ne_nil (List.splitOn_ne_nil '/' text)

private theorem notMem_of_mem_split {text part : List Char} (h : part ∈ split text) :
    '/' ∉ part := by
  rw [split_eq_splitOn] at h
  exact Text.notMem_of_mem_splitOn h

private theorem head?_eq_slash_iff {text first : List Char} {rest : List (List Char)}
    (h : split text = first :: rest) : text.head? = some '/' ↔ first = [] ∧ rest ≠ [] := by
  cases text with
  | nil =>
    cases h
    simp
  | cons c text =>
    obtain ⟨part, parts, hsplit⟩ := exists_split text
    rw [split, hsplit] at h
    split at h
    · rename_i hc
      cases h
      simp [hc]
    · rename_i hc
      cases h
      simp [hc]

def names (parts : List (List Char)) : List String :=
  (parts.filter (!·.isEmpty)).map String.ofList

@[simp] theorem names_append (parts more : List (List Char)) :
    names (parts ++ more) = names parts ++ names more := by
  simp [names]

private theorem names_cons {part : List Char} (h : part ≠ []) (parts : List (List Char)) :
    names (part :: parts) = String.ofList part :: names parts := by
  rw [names, List.filter_cons_of_pos (by simpa using h), List.map_cons, names]

private theorem steps_eq (path : String) :
    steps path = names (split path.toList) ++ if isDirectoryPath path then ["."] else [] := rfl

/-! ## The path above -/

private theorem partsBack_eq {path : String} {first : List Char} {rest : List (List Char)}
    (h : split path.toList = first :: rest) :
    partsBack path = rest.reverse.dropWhile isIdle ++ [first] := by
  rw [partsBack, h]

private theorem parent?_of_partsBack {path : String} {latest first : List Char}
    {before : List (List Char)} (h : partsBack path = latest :: (before ++ [first])) :
    parent? path =
      some (ofPartsBack (isAbsolute path) (before.dropWhile isIdle ++ [first])) := by
  obtain ⟨next, more, hbefore⟩ :=
    List.exists_cons_of_ne_nil
      (List.append_ne_nil_of_right_ne_nil before (List.cons_ne_nil first []))
  rw [hbefore] at h
  rw [parent?, h]
  dsimp only
  rw [← hbefore, List.dropLast_concat, List.getLast?_concat, Option.toList_some]

private theorem ne_nil_of_not_isIdle {part : List Char} (h : isIdle part = false) : part ≠ [] := by
  rintro rfl
  cases h

theorem not_isIdle_of_length {part : List Char} (h : 2 < part.length) : isIdle part = false := by
  match part with
  | _ :: _ :: _ :: _ => simp [isIdle]

private theorem reverse_split_idle (parts : List (List Char)) :
    ∃ idle, parts = (parts.reverse.dropWhile isIdle).reverse ++ idle := by
  refine ⟨(parts.reverse.takeWhile isIdle).reverse, ?_⟩
  rw [← List.reverse_append, List.takeWhile_append_dropWhile, List.reverse_reverse]

private theorem split_of_parent? {path above : String} (h : parent? path = some above)
    (hne : above ≠ "") :
    ∃ first kept idle name after,
      split path.toList = first :: (kept ++ (idle ++ name :: after)) ∧ name ≠ [] ∧
      (∀ last ∈ kept.getLast?, last ≠ []) ∧
      above = ofPartsBack (isAbsolute path) (first :: kept).reverse := by
  obtain ⟨first, rest, hsplit⟩ := exists_split path.toList
  have hback := partsBack_eq hsplit
  obtain ⟨after, hrest⟩ := reverse_split_idle rest
  have hidle := List.head?_dropWhile_not isIdle rest.reverse
  generalize rest.reverse.dropWhile isIdle = back at hback hrest hidle
  cases back with
  | nil =>
    rw [parent?, hback] at h
    dsimp only [List.nil_append] at h
    split at h
    · cases h
    · cases h
      exact absurd rfl hne
  | cons name before =>
    obtain ⟨idle, hbefore⟩ := reverse_split_idle before.reverse
    have hlast := List.head?_dropWhile_not isIdle before
    rw [List.reverse_reverse] at hbefore
    rw [parent?_of_partsBack hback] at h
    refine ⟨first, (before.dropWhile isIdle).reverse, idle, name, after, ?_,
      ne_nil_of_not_isIdle hidle, ?_, ?_⟩
    · rw [hsplit, hrest, List.reverse_cons, hbefore]
      simp
    · intro last hlast'
      rw [List.getLast?_reverse] at hlast'
      rw [Option.mem_def.mp hlast'] at hlast
      exact ne_nil_of_not_isIdle hlast
    · rw [List.reverse_cons, List.reverse_reverse]
      exact (Option.some.inj h).symm

/-- The text of parts that have no slash splits into them again. -/
theorem split_intercalate {parts : List (List Char)} (hne : parts ≠ [])
    (h : ∀ part ∈ parts, '/' ∉ part) :
    split (String.intercalate "/" (parts.map String.ofList)).toList = parts := by
  have htexts : (parts.map String.ofList).map String.toList = parts := by
    rw [List.map_map]
    exact (List.map_congr_left fun part _ => String.toList_ofList).trans (List.map_id parts)
  rw [String.toList_intercalate, htexts, split_eq_splitOn]
  exact List.splitOn_intercalate '/' h hne

private theorem isDirectoryPath_eq_false {path : String} {first : List Char}
    {rest : List (List Char)} (h : split path.toList = first :: rest)
    (hlast : ∀ last ∈ rest.getLast?, last ≠ []) :
    isDirectoryPath path = false := by
  rw [isDirectoryPath, beq_eq_false_iff_ne]
  intro hslash
  obtain ⟨before, hpath⟩ := List.getLast?_eq_some_iff.mp hslash
  rw [hpath, split_append_slash] at h
  obtain ⟨first', rest', hbefore⟩ := exists_split before
  rw [hbefore] at h
  cases h
  exact hlast [] (List.getLast?_concat ..) rfl

private theorem isAbsolute_iff {path : String} {first : List Char} {rest : List (List Char)}
    (h : split path.toList = first :: rest) :
    isAbsolute path = true ↔ first = [] ∧ rest ≠ [] := by
  rw [isAbsolute, beq_iff_eq, head?_eq_slash_iff h]

private theorem withoutSlash_eq_self {path : String} (h : isDirectoryPath path = false) :
    withoutSlash path = path := by
  have hbare : path.toList.reverse.dropWhile (· == '/') = path.toList.reverse := by
    rw [isDirectoryPath, ← List.head?_reverse] at h
    cases htext : path.toList.reverse with
    | nil => rfl
    | cons c text =>
      rw [htext] at h
      exact List.dropWhile_cons_of_neg (Bool.eq_false_iff.mp h)
  rw [withoutSlash, hbare, List.reverse_reverse, String.ofList_toList]
  refine if_neg fun hroot => ?_
  obtain ⟨habsolute, hempty⟩ := Bool.and_eq_true_iff.mp hroot
  rw [String.isEmpty_iff.mp hempty] at habsolute
  cases habsolute

/-- What stands above a path: nothing, the root, or a path without a slash at its end that splits
into parts of the path below it, in front of its name. -/
theorem parent?_cases {path above : String} (h : parent? path = some above) :
    above = "" ∨ above = "/" ∨ isDirectoryPath above = false ∧
      isAbsolute above = isAbsolute path ∧
      ∃ more, split path.toList = split above.toList ++ more ∧ names more ≠ [] := by
  by_cases hne : above = ""
  · exact Or.inl hne
  right
  obtain ⟨first, kept, idle, name, after, hsplit, hname, hlast, habove⟩ := split_of_parent? h hne
  have hslash : ∀ part ∈ first :: kept, '/' ∉ part := by
    intro part hpart
    have hmem : part ∈ split path.toList := by
      rw [hsplit]
      exact List.mem_append_left (idle ++ name :: after) hpart
    exact notMem_of_mem_split hmem
  have htext := split_intercalate (List.cons_ne_nil first kept) hslash
  rw [ofPartsBack, List.reverse_reverse] at habove
  generalize String.intercalate "/" ((first :: kept).map String.ofList) = text at htext habove
  split at habove
  · exact Or.inl habove
  · subst habove
    have hmore : names (idle ++ name :: after) ≠ [] := by
      rw [names_append, names_cons hname]
      exact List.append_ne_nil_of_right_ne_nil _ (List.cons_ne_nil _ _)
    have habsolute : isAbsolute above = isAbsolute path := by
      rw [Bool.eq_iff_iff, isAbsolute_iff htext, isAbsolute_iff hsplit]
      refine and_congr_right fun hfirst => iff_of_true ?_ ?_
      · rintro rfl
        subst hfirst
        have hempty : above.toList = [] := by
          have hjoin : ['/'].intercalate (above.toList.splitOn '/') = above.toList :=
            List.intercalate_splitOn '/'
          rw [← hjoin, ← split_eq_splitOn, htext, List.intercalate_singleton]
        exact hne (String.toList_eq_nil_iff.mp hempty)
      · simp
    exact Or.inr ⟨isDirectoryPath_eq_false htext hlast, habsolute, idle ++ name :: after,
      by rw [htext, hsplit]; rfl, hmore⟩

theorem withoutSlash_parent {path above : String} (h : parent? path = some above) :
    withoutSlash above = above := by
  rcases parent?_cases h with rfl | rfl | ⟨hslash, _⟩
  · decide
  · decide
  · exact withoutSlash_eq_self hslash

theorem withoutSlash_of_mem_ancestors {path : String} (hpath : withoutSlash path = path)
    (limit : Nat) : ∀ above ∈ ancestorsUpTo limit path, withoutSlash above = above := by
  induction limit generalizing path with
  | zero => simpa [ancestorsUpTo] using hpath
  | succ limit ih =>
    intro above habove
    rw [ancestorsUpTo] at habove
    cases hparent : parent? path with
    | none =>
      rw [hparent] at habove
      rw [List.mem_singleton.mp habove]
      exact hpath
    | some next =>
      rw [hparent] at habove
      rcases List.mem_cons.mp habove with rfl | habove
      · exact hpath
      · exact ih (withoutSlash_parent hparent) above habove

/-- The steps of a path begin with those of the path above it, and a name follows. -/
theorem steps_parent {path above : String} (h : parent? path = some above) :
    above = "" ∨ above = "/" ∨
      isAbsolute above = isAbsolute path ∧
      ∃ step more, steps path = steps above ++ step :: more := by
  rcases parent?_cases h with rfl | rfl | ⟨hslash, habsolute, more, hsplit, hmore⟩
  · exact Or.inl rfl
  · exact Or.inr (Or.inl rfl)
  · obtain ⟨step, rest, hnames⟩ := List.exists_cons_of_ne_nil hmore
    refine Or.inr (Or.inr ⟨habsolute, step,
      rest ++ if isDirectoryPath path then ["."] else [], ?_⟩)
    simp [steps_eq, hsplit, hnames, hslash]

/-! ## Names in a directory -/

section Names

variable {directory : String}

private theorem split_append_name (hdirectory : isDirectoryPath directory = true) :
    ∃ first rest, ∀ name : String, '/' ∉ name.toList →
      split (directory ++ name).toList = first :: (rest ++ [name.toList]) := by
  obtain ⟨before, hbefore⟩ := List.getLast?_eq_some_iff.mp (beq_iff_eq.mp hdirectory)
  obtain ⟨first, rest, hsplit⟩ := exists_split before
  refine ⟨first, rest, fun name hname => ?_⟩
  simp [hbefore, split_append_slash, hsplit, split_of_notMem hname]

theorem isAbsolute_append (hne : directory ≠ "") (name : String) :
    isAbsolute (directory ++ name) = isAbsolute directory := by
  have hchars : directory.toList ≠ [] := fun h => hne (String.toList_eq_nil_iff.mp h)
  rw [isAbsolute, isAbsolute, String.toList_append, List.head?_append_of_ne_nil _ hchars]

theorem ne_empty_of_isDirectoryPath (hdirectory : isDirectoryPath directory = true) :
    directory ≠ "" := by
  rintro rfl
  cases hdirectory

theorem exists_parent?_append_name (hdirectory : isDirectoryPath directory = true) :
    ∃ above, ∀ name : String, '/' ∉ name.toList → isIdle name.toList = false →
      parent? (directory ++ name) = some above := by
  obtain ⟨first, rest, hsplit⟩ := split_append_name hdirectory
  refine ⟨ofPartsBack (isAbsolute directory) (rest.reverse.dropWhile isIdle ++ [first]),
    fun name hslash hidle => ?_⟩
  have hback : partsBack (directory ++ name) = name.toList :: (rest.reverse ++ [first]) := by
    rw [partsBack_eq (hsplit name hslash), List.reverse_append, List.reverse_singleton,
      List.singleton_append, List.dropWhile_cons_of_neg (Bool.eq_false_iff.mp hidle)]
    rfl
  rw [parent?_of_partsBack hback, isAbsolute_append (ne_empty_of_isDirectoryPath hdirectory)]

theorem exists_steps_append_name (hdirectory : isDirectoryPath directory = true) :
    ∃ steps', ∀ name : String, '/' ∉ name.toList → name ≠ "" →
      steps (directory ++ name) = steps' ++ [name] := by
  obtain ⟨first, rest, hsplit⟩ := split_append_name hdirectory
  refine ⟨names (first :: rest), fun name hslash hne => ?_⟩
  have hname : name.toList ≠ [] := fun h => hne (String.toList_eq_nil_iff.mp h)
  have hend : isDirectoryPath (directory ++ name) = false := by
    apply isDirectoryPath_eq_false (hsplit name hslash)
    intro last hlast
    rw [List.getLast?_concat] at hlast
    rwa [← Option.some.inj hlast]
  rw [steps_eq, hend, hsplit name hslash, if_neg Bool.false_ne_true, List.append_nil,
    ← List.cons_append, names_append, names_cons hname, String.ofList_toList]
  rfl

private theorem mem_split_of_name? {path : String} {name : List Char} (h : name? path = some name) :
    name ∈ split path.toList := by
  obtain ⟨first, rest, hsplit⟩ := exists_split path.toList
  have hmem : name ∈ partsBack path := by
    rw [name?] at h
    split at h
    · cases h
    · rename_i hback
      split at h
      · cases h
      · rw [hback, Option.some.inj h]
        exact List.mem_cons_self
  rw [partsBack_eq hsplit, List.mem_append, List.mem_singleton] at hmem
  rw [hsplit, List.mem_cons]
  rcases hmem with hmem | hmem
  · exact Or.inr (List.mem_reverse.mp ((List.dropWhile_sublist _).subset hmem))
  · exact Or.inl hmem

private theorem stemOf_subset (name : List Char) : stemOf name ⊆ name := by
  intro c hc
  rw [stemOf] at hc
  split at hc
  · exact hc
  · exact List.mem_reverse.mp (List.mem_of_mem_drop (List.mem_reverse.mp hc))

theorem notMem_of_stem? {path stem : String} (h : stem? path = some stem) :
    '/' ∉ stem.toList := by
  obtain ⟨name, hname, rfl⟩ := Option.map_eq_some_iff.mp h
  rw [String.toList_ofList]
  intro hslash
  exact notMem_of_mem_split (mem_split_of_name? hname) (stemOf_subset name hslash)

end Names
end Botwright.Path
