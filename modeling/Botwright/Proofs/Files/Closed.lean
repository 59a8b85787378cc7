import Botwright.Proofs.Files.System

/-!
# Closed trees

In a closed tree everything stands in a directory. A path that never goes up then leads to all that
is at its place, and a tree stays closed whatever directories and texts are put where paths lead.
-/

namespace Botwright.FileTree

open FileSystem

/-- Everything stands in a directory, and relative paths begin in one. -/
structure Closed (tree : FileTree) : Prop where
  above : ∀ name place, tree.entryAt (name :: place) ≠ none →
    tree.entryAt place = some .directory
  start : tree.entryAt tree.workingPlace = some .directory

section Closed

variable {tree later : FileTree} {path : String}

theorem Closed.suffix (h : tree.Closed) {p q : Place} (hp : tree.entryAt p ≠ none) (hq : q <:+ p)
    (hne : q ≠ p) : tree.entryAt q = some .directory := by
  induction p with
  | nil => exact absurd (List.suffix_nil.mp hq) hne
  | cons name place ih =>
    have hplace := h.above name place hp
    rcases List.suffix_cons_iff.mp hq with rfl | hq
    · exact absurd rfl hne
    · by_cases hsame : q = place
      · rw [hsame]
        exact hplace
      · exact ih (by rw [hplace]; exact Option.some_ne_none _) hq hsame

private theorem Closed.directory_suffix (h : tree.Closed) {p q : Place}
    (hp : tree.entryAt p = some .directory) (hq : q <:+ p) : tree.entryAt q = some .directory := by
  by_cases hsame : q = p
  · rw [hsame]
    exact hp
  · exact h.suffix (by rw [hp]; exact Option.some_ne_none _) hq hsame

private theorem Closed.directory_start (h : tree.Closed) (path : String) :
    tree.entryAt (tree.start path) = some .directory := by
  rw [FileTree.start]
  split
  · rfl
  · exact h.start

/-! ## Downward paths -/

private theorem follow_cases (here : Place) (step : String) :
    follow here step = here ∨ (step = ".." ∧ follow here step = here.tail) ∨
      follow here step = step :: here := by
  by_cases hdot : step = "."
  · exact Or.inl (if_pos hdot)
  · by_cases hup : step = ".."
    · exact Or.inr (Or.inl ⟨hup, (if_neg hdot).trans (if_pos hup)⟩)
    · exact Or.inr (Or.inr ((if_neg hdot).trans (if_neg hup)))

private theorem suffix_foldl_follow {steps : List String} (h : ".." ∉ steps) (here : Place) :
    here <:+ steps.foldl follow here := by
  induction steps generalizing here with
  | nil => exact List.suffix_refl here
  | cons step steps ih =>
    have hrest := ih (fun hmem => h (List.mem_cons_of_mem step hmem)) (follow here step)
    rw [List.foldl_cons]
    rcases follow_cases here step with heq | ⟨rfl, _⟩ | heq
    · rwa [heq] at hrest ⊢
    · exact absurd List.mem_cons_self h
    · rw [heq] at hrest ⊢
      exact (List.suffix_cons step here).trans hrest

private theorem suffix_of_mem_passed {steps : List String} (h : ".." ∉ steps) {here p : Place}
    (hp : p ∈ passed here steps) : p <:+ steps.foldl follow here := by
  induction steps generalizing here with
  | nil => cases hp
  | cons step steps ih =>
    rcases List.mem_cons.mp hp with rfl | hp
    · exact suffix_foldl_follow h p
    · exact ih (fun hmem => h (List.mem_cons_of_mem step hmem)) hp

/-- What is at the place of a path that never goes up can be reached, unless it is a file that the
path takes for a directory. -/
theorem Closed.leads (h : tree.Closed) (hdown : ".." ∉ Path.steps path) (hne : path ≠ "")
    (hentry : tree.entryAt (tree.place path) ≠ none)
    (hplace : tree.place path ∉ passed (tree.start path) (Path.steps path)) : tree.Leads path := by
  refine tree.leads_iff.mpr ⟨hne, fun p hp => ?_⟩
  refine h.suffix hentry (suffix_of_mem_passed hdown hp) ?_
  rintro rfl
  exact hplace hp

/-! ## Staying closed -/

private theorem directory_above {steps : List String} {here : Place}
    (hhere : ∀ q, q <:+ here → tree.entryAt q = some .directory)
    (hpassed : ∀ p ∈ passed here steps, tree.entryAt p = some .directory) {q : Place}
    (hq : q <:+ (steps.foldl follow here).tail) : tree.entryAt q = some .directory := by
  induction steps generalizing here with
  | nil => exact hhere q (hq.trans (List.tail_suffix here))
  | cons step steps ih =>
    have hrest : ∀ p ∈ passed (follow here step) steps, tree.entryAt p = some .directory :=
      fun p hp => hpassed p (List.mem_cons_of_mem here hp)
    rw [List.foldl_cons] at hq
    rcases follow_cases here step with heq | ⟨_, heq⟩ | heq
    · rw [heq] at hq hrest
      exact ih hhere hrest hq
    · rw [heq] at hq hrest
      exact ih (fun p hp => hhere p (hp.trans (List.tail_suffix here))) hrest hq
    · rw [heq] at hq hrest
      cases steps with
      | nil => exact hhere q hq
      | cons next steps =>
        refine ih (fun p hp => ?_) hrest hq
        rcases List.suffix_cons_iff.mp hp with rfl | hp
        · exact hrest _ List.mem_cons_self
        · exact hhere p hp

/-- A tree stays closed if it keeps its directories and gets entries only where paths lead. -/
theorem Closed.grow (h : tree.Closed) (hstart : later.workingPlace = tree.workingPlace)
    (hkept : ∀ p, tree.entryAt p = some .directory → later.entryAt p = some .directory)
    (hadded : ∀ p, later.entryAt p ≠ none → tree.entryAt p ≠ none ∨
      ∃ path, locate? later path = some p) : later.Closed := by
  refine ⟨fun name place hentry => ?_, ?_⟩
  · rcases hadded _ hentry with hentry | ⟨path, hpath⟩
    · exact hkept place (h.above name place hentry)
    · obtain ⟨hleads, hplace⟩ := locate?_eq_some_iff.mp hpath
      have hhere : ∀ q, q <:+ later.start path → later.entryAt q = some .directory := by
        intro q hq
        rw [FileTree.start, hstart, ← FileTree.start] at hq
        exact hkept q (h.directory_suffix (h.directory_start path) hq)
      have hpassed := (later.leads_iff.mp hleads).2
      refine directory_above hhere hpassed ?_
      rw [← FileTree.place, ← hplace]
      exact List.suffix_refl place
  · rw [hstart]
    exact hkept _ h.start

theorem Closed.extends (h : tree.Closed) (hstart : later.workingPlace = tree.workingPlace)
    {paths : List String} (hextends : Extends paths tree later) : later.Closed := by
  refine h.grow hstart (fun p hp => ?_) (fun p hp => ?_)
  · rcases hextends.entry p with hsame | ⟨_, hmade, _⟩
    · exact hsame.trans hp
    · exact hmade
  · rcases hextends.entry p with hsame | ⟨_, _, path, _, hleads⟩
    · exact Or.inl fun hnone => hp (hsame.trans hnone)
    · exact Or.inr ⟨path, hleads⟩

theorem Closed.stores {made : FileTree} (h : tree.Closed)
    (hstart : later.workingPlace = tree.workingPlace) {paths : List String}
    (hextends : Extends paths tree made) {text : String} (hstores : Stores path text made later) :
    later.Closed := by
  obtain ⟨p, hleads, _, hplace, hothers⟩ := hstores.entry
  refine h.grow hstart (fun q hq => ?_) (fun q hq => ?_)
  · have hmade : made.entryAt q = some .directory := by
      rcases hextends.entry q with hsame | ⟨_, hmade, _⟩
      · exact hsame.trans hq
      · exact hmade
    by_cases hsame : q = p
    · rw [hsame] at hmade
      exact absurd hmade hplace
    · exact (hothers q hsame).trans hmade
  · by_cases hsame : q = p
    · rw [hsame]
      exact Or.inr ⟨path, hleads⟩
    · rcases hextends.entry q with hold | ⟨_, _, above, _, habove⟩
      · exact Or.inl fun hnone => hq ((hothers q hsame).trans (hold.trans hnone))
      · exact Or.inr ⟨above, hstores.located above q habove⟩

end Closed
end Botwright.FileTree
