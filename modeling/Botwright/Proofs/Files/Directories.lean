import Botwright.Proofs.Files.Frame
import Botwright.Proofs.Files.Paths

/-!
# Making directories

A directory is made together with those above it that are missing. This only adds directories.
Once it has succeeded it changes nothing when it is done again, and once it has failed it fails
again.
-/

namespace Botwright

theorem bind_apply {σ α β : Type} (x : StateM σ α) (f : α → StateM σ β) (s : σ) :
    (x >>= f) s = f (x s).1 (x s).2 := rfl

namespace FileTree

def makeAll (tree : FileTree) (paths : List String) : Except FileFault Unit × FileTree :=
  FileStore.makeDirectories (m := StateM FileTree) paths tree

/-- The path leads to a directory. -/
def HasDirectory (tree : FileTree) (path : String) : Prop :=
  tree.read path = .error .isDirectory

def ensure (tree : FileTree) (path : String) : Except FileFault Unit × FileTree :=
  (do FileStore.settleDirectory path (← FileStore.makeDirectory path) :
    StateM FileTree (Except FileFault Unit)) tree

section Ensure

variable {tree later : FileTree} {path : String}

theorem makeDirectory_cases (tree : FileTree) (path : String) :
    (∃ place, tree.locate (Path.withoutSlash path) = .ok place ∧ tree.entryAt place = none ∧
      tree.makeDirectory path = (.ok (), tree.put place .directory)) ∨
    ∃ fault, tree.makeDirectory path = (.error fault, tree) := by
  cases hlocate : tree.locate (Path.withoutSlash path) with
  | error fault => exact Or.inr ⟨fault, by rw [makeDirectory, hlocate]⟩
  | ok place =>
    cases hentry : tree.entryAt place with
    | none =>
      refine Or.inl ⟨place, rfl, hentry, ?_⟩
      rw [makeDirectory, hlocate]
      dsimp only
      rw [hentry]
    | some entry =>
      refine Or.inr ⟨.alreadyThere, ?_⟩
      rw [makeDirectory, hlocate]
      dsimp only
      rw [hentry]

private theorem isDirectory_of_hasDirectory (h : tree.HasDirectory path) :
    FileStore.isDirectory (m := StateM FileTree) path tree = (true, tree) := by
  have hread : FileStore.read (m := StateM FileTree) path tree = (tree.read path, tree) := rfl
  rw [FileStore.isDirectory, bind_apply, hread, h]
  rfl

private theorem isDirectory_of_not_hasDirectory (h : ¬ tree.HasDirectory path) :
    FileStore.isDirectory (m := StateM FileTree) path tree = (false, tree) := by
  have hread : FileStore.read (m := StateM FileTree) path tree = (tree.read path, tree) := rfl
  rw [HasDirectory] at h
  rw [FileStore.isDirectory, bind_apply, hread]
  cases hfault : tree.read path with
  | ok text => rfl
  | error fault =>
    rw [hfault] at h
    cases fault with
    | isDirectory => exact absurd rfl h
    | _ => rfl

private theorem ensure_of_ok (h : tree.makeDirectory path = (.ok (), later)) :
    tree.ensure path = (.ok (), later) := by
  have hmade : FileStore.makeDirectory (m := StateM FileTree) path tree = (.ok (), later) := h
  rw [ensure, bind_apply, hmade]
  rfl

private theorem ensure_of_error {fault : FileFault}
    (h : tree.makeDirectory path = (.error fault, tree)) :
    tree.HasDirectory path ∧ tree.ensure path = (.ok (), tree) ∨
      ¬ tree.HasDirectory path ∧ tree.ensure path = (.error fault, tree) := by
  have hmade : FileStore.makeDirectory (m := StateM FileTree) path tree = (.error fault, tree) := h
  rw [ensure, bind_apply, hmade]
  dsimp only [FileStore.settleDirectory]
  by_cases hdirectory : tree.HasDirectory path
  · rw [bind_apply, isDirectory_of_hasDirectory hdirectory]
    exact Or.inl ⟨hdirectory, rfl⟩
  · rw [bind_apply, isDirectory_of_not_hasDirectory hdirectory]
    exact Or.inr ⟨hdirectory, rfl⟩

private theorem eq_of_ensure_error {fault : FileFault}
    (h : tree.ensure path = (.error fault, later)) :
    later = tree := by
  rcases tree.makeDirectory_cases path with ⟨_, _, _, hmade⟩ | ⟨fault', hmade⟩
  · rw [ensure_of_ok hmade] at h
    cases h
  · rcases ensure_of_error hmade with ⟨_, h'⟩ | ⟨_, h'⟩
    · rw [h'] at h
      cases h
    · rw [h'] at h
      cases h
      rfl

private theorem keeps_ensure (tree : FileTree) (path : String) :
    Keeps [] tree (tree.ensure path).2 := by
  rcases tree.makeDirectory_cases path with ⟨place, _, hentry, h⟩ | ⟨fault, h⟩
  · rw [ensure_of_ok h]
    exact keeps_put_directory hentry
  · rcases ensure_of_error h with ⟨_, h⟩ | ⟨_, h⟩ <;>
    · rw [h]
      exact .refl [] tree

variable (hpath : Path.withoutSlash path = path)
include hpath

/-- One directory either stands in the end, or nothing was made. -/
theorem ensure_cases :
    (∃ later, tree.ensure path = (.ok (), later) ∧ later.HasDirectory path) ∨
      ¬ tree.HasDirectory path ∧ ∃ fault, tree.ensure path = (.error fault, tree) := by
  rcases tree.makeDirectory_cases path with ⟨place, hlocate, hentry, h⟩ | ⟨fault, h⟩
  · refine Or.inl ⟨_, ensure_of_ok h, ?_⟩
    rw [hpath] at hlocate
    obtain ⟨hleads, rfl⟩ := tree.locate_eq_ok_iff.mp hlocate
    have hkeeps := keeps_put_directory hentry
    refine (read_eq_isDirectory_iff _).mpr ⟨hkeeps.leads hleads, ?_⟩
    rw [hkeeps.place_eq, entryAt_put_self _ _ _ (ne_root_of_none hentry)]
  · rcases ensure_of_error h with ⟨hdirectory, h⟩ | ⟨hnone, h⟩
    · exact Or.inl ⟨tree, h, hdirectory⟩
    · exact Or.inr ⟨hnone, fault, h⟩

private theorem ensure_of_hasDirectory (h : tree.HasDirectory path) :
    tree.ensure path = (.ok (), tree) := by
  obtain ⟨hleads, hentry⟩ := tree.read_eq_isDirectory_iff.mp h
  rcases tree.makeDirectory_cases path with ⟨place, hlocate, hnone, _⟩ | ⟨fault, hmade⟩
  · rw [hpath] at hlocate
    obtain ⟨_, rfl⟩ := tree.locate_eq_ok_iff.mp hlocate
    rw [hnone] at hentry
    cases hentry
  · rcases ensure_of_error hmade with ⟨_, h'⟩ | ⟨hnot, _⟩
    · exact h'
    · exact absurd h hnot

private theorem leads_of_ensure_ok (h : tree.ensure path = (.ok (), later)) : tree.Leads path := by
  rcases tree.makeDirectory_cases path with ⟨place, hlocate, _, _⟩ | ⟨fault, hmade⟩
  · rw [hpath] at hlocate
    exact (tree.locate_eq_ok_iff.mp hlocate).1
  · rcases ensure_of_error hmade with ⟨hdirectory, _⟩ | ⟨_, h'⟩
    · exact (tree.read_eq_isDirectory_iff.mp hdirectory).1
    · rw [h'] at h
      cases h

end Ensure

/-! ## Nested directories -/

section MakeAll

variable {tree later : FileTree} {path : String} {paths : List String}

@[simp] theorem makeAll_empty (tree : FileTree) (paths : List String) :
    tree.makeAll ("" :: paths) = (.ok (), tree) := rfl

private theorem makeAll_of_not_missing (hne : path ≠ "")
    (h : (tree.makeDirectory path).1 ≠ .error .missing) (paths : List String) :
    tree.makeAll (path :: paths) = tree.ensure path := by
  rw [makeAll, FileStore.makeDirectories, if_neg (mt String.isEmpty_iff.mp hne), ensure,
    bind_apply, bind_apply]
  have hmade : FileStore.makeDirectory (m := StateM FileTree) path tree =
    tree.makeDirectory path := rfl
  rw [hmade]
  generalize tree.makeDirectory path = outcome at h
  obtain ⟨made, later⟩ := outcome
  cases made with
  | ok _ => rfl
  | error fault =>
    cases fault with
    | missing => exact absurd rfl h
    | _ => rfl

private theorem makeAll_of_error (hne : path ≠ "") {fault : FileFault}
    (h : tree.makeDirectory path = (.error .missing, tree))
    (habove : tree.makeAll paths = (.error fault, later)) :
    tree.makeAll (path :: paths) = (.error fault, later) := by
  have hmade : FileStore.makeDirectory (m := StateM FileTree) path tree =
    (.error .missing, tree) := h
  rw [makeAll] at habove
  rw [makeAll, FileStore.makeDirectories, if_neg (mt String.isEmpty_iff.mp hne), bind_apply, hmade]
  dsimp only
  rw [bind_apply, habove]
  rfl

private theorem makeAll_of_ok (hne : path ≠ "")
    (h : tree.makeDirectory path = (.error .missing, tree))
    (habove : tree.makeAll paths = (.ok (), later)) :
    tree.makeAll (path :: paths) = later.ensure path := by
  have hmade : FileStore.makeDirectory (m := StateM FileTree) path tree =
    (.error .missing, tree) := h
  rw [makeAll] at habove
  rw [makeAll, FileStore.makeDirectories, if_neg (mt String.isEmpty_iff.mp hne), bind_apply, hmade]
  dsimp only
  rw [bind_apply, habove]
  rfl

/-- The first directory is made alone, or after those above it, unless these cannot be made. -/
theorem makeAll_cases (tree : FileTree) (hne : path ≠ "") (paths : List String) :
    tree.makeAll (path :: paths) = tree.ensure path ∨
      (∃ fault later, tree.makeDirectory path = (.error .missing, tree) ∧
        tree.makeAll paths = (.error fault, later) ∧
        tree.makeAll (path :: paths) = (.error fault, later)) ∨
      ∃ later, tree.makeDirectory path = (.error .missing, tree) ∧
        tree.makeAll paths = (.ok (), later) ∧
        tree.makeAll (path :: paths) = later.ensure path := by
  by_cases hmissing : (tree.makeDirectory path).1 = .error .missing
  · right
    have hmade : tree.makeDirectory path = (.error .missing, tree) := by
      rcases tree.makeDirectory_cases path with ⟨_, _, _, h⟩ | ⟨fault, h⟩
      · rw [h] at hmissing
        cases hmissing
      · rw [h] at hmissing ⊢
        exact congrArg (·, tree) hmissing
    cases habove : tree.makeAll paths with
    | mk result later =>
      cases result with
      | error fault =>
        exact Or.inl ⟨fault, later, hmade, rfl, makeAll_of_error hne hmade habove⟩
      | ok _ => exact Or.inr ⟨later, hmade, rfl, makeAll_of_ok hne hmade habove⟩
  · exact Or.inl (makeAll_of_not_missing hne hmissing paths)

theorem keeps_makeAll (tree : FileTree) (paths : List String) :
    Keeps [] tree (tree.makeAll paths).2 := by
  induction paths with
  | nil => exact .refl [] tree
  | cons path paths ih =>
    by_cases hne : path = ""
    · subst hne
      exact .refl [] tree
    · rcases tree.makeAll_cases hne paths with h | ⟨fault, later, _, habove, h⟩ |
        ⟨later, _, habove, h⟩
      · rw [h]
        exact keeps_ensure tree path
      · rw [h]
        rw [habove] at ih
        exact ih
      · rw [h]
        rw [habove] at ih
        exact ih.trans (keeps_ensure later path)

variable (hpath : Path.withoutSlash path = path)
include hpath

private theorem hasDirectory_of_makeAll (hne : path ≠ "")
    (h : tree.makeAll (path :: paths) = (.ok (), later)) : later.HasDirectory path := by
  have hensure {t : FileTree} (h : t.ensure path = (.ok (), later)) : later.HasDirectory path := by
    rcases ensure_cases hpath with ⟨_, hmade, hdirectory⟩ | ⟨_, fault, hfailed⟩
    · rw [hmade] at h
      cases h
      exact hdirectory
    · rw [hfailed] at h
      cases h
  rcases tree.makeAll_cases hne paths with h' | ⟨_, _, _, _, h'⟩ | ⟨_, _, _, h'⟩
  · exact hensure (h' ▸ h)
  · rw [h'] at h
    cases h
  · exact hensure (h' ▸ h)

private theorem makeAll_of_hasDirectory (h : tree.HasDirectory path) (paths : List String) :
    tree.makeAll (path :: paths) = (.ok (), tree) := by
  obtain ⟨hleads, hentry⟩ := tree.read_eq_isDirectory_iff.mp h
  have hthere : (tree.makeDirectory path).1 = .error .alreadyThere := by
    rw [makeDirectory, hpath, hleads]
    dsimp only
    rw [hentry]
  have hmissing : (tree.makeDirectory path).1 ≠ .error .missing := by
    rw [hthere]
    rintro ⟨⟩
  rw [makeAll_of_not_missing (tree.leads_iff.mp hleads).1 hmissing,
    ensure_of_hasDirectory hpath h]

private theorem makeAll_cons_again
    (hfails : ∀ t fault later, makeAll t paths = (.error fault, later) →
      ∃ fault', later.makeAll paths = (.error fault', later))
    (hsettled : ∀ t later, makeAll t paths = (.ok (), later) →
      later.makeAll paths = (.ok (), later))
    (habove : ∀ t : FileTree, t.Leads path → paths = [] ∨ t.makeAll paths = (.ok (), t))
    {fault : FileFault} (h : tree.makeAll (path :: paths) = (.error fault, later)) :
    ∃ fault', later.makeAll (path :: paths) = (.error fault', later) := by
  by_cases hne : path = ""
  · subst hne
    cases h
  rcases tree.makeAll_cases hne paths with h' | ⟨fault, mid, _, hmid, h'⟩ | ⟨mid, _, hmid, h'⟩
  · obtain rfl := eq_of_ensure_error (h'.symm.trans h)
    exact ⟨fault, h⟩
  · -- The directories above could not be made: then the path does not lead anywhere now either.
    obtain ⟨fault', hagain⟩ := hfails tree fault mid hmid
    rw [h'] at h
    cases h
    rcases later.makeAll_cases hne paths with hlast | ⟨fault₂, _, _, hlast, h₂⟩ | ⟨_, _, hlast, _⟩
    · cases hensure : later.ensure path with
      | mk result last =>
        cases result with
        | error fault₂ =>
          obtain rfl := eq_of_ensure_error hensure
          exact ⟨fault₂, hlast.trans hensure⟩
        | ok _ =>
          rcases habove later (leads_of_ensure_ok hpath hensure) with rfl | hok
          · cases hmid
            exact ⟨_, h'⟩
          · rw [hagain] at hok
            cases hok
    · rw [hagain] at hlast
      cases hlast
      exact ⟨_, h₂⟩
    · rw [hagain] at hlast
      cases hlast
  · have hfailed := h'.symm.trans h
    obtain rfl := eq_of_ensure_error hfailed
    have hagain := hsettled tree later hmid
    rcases later.makeAll_cases hne paths with hlast | ⟨_, _, _, hlast, _⟩ | ⟨_, _, hlast, h₂⟩
    · exact ⟨fault, hlast.trans hfailed⟩
    · rw [hagain] at hlast
      cases hlast
    · rw [hagain] at hlast
      cases hlast
      exact ⟨fault, h₂.trans hfailed⟩

end MakeAll

/-! ## A path and all above it -/

section Ancestors

variable {tree later : FileTree} {path above : String}

private theorem hasDirectory_root (tree : FileTree) : tree.HasDirectory "/" := by
  have hsteps : Path.steps "/" = ["."] := by decide
  have hstart : tree.start "/" = [] := if_pos (by decide)
  refine tree.read_eq_isDirectory_iff.mpr ⟨tree.leads_iff.mpr ⟨by decide, ?_⟩, ?_⟩
  · rw [hsteps, hstart]
    intro p hp
    rw [List.mem_singleton.mp hp]
    rfl
  · rw [place, hsteps, hstart]
    rfl

private theorem hasDirectory_parent (hparent : Path.parent? path = some above)
    (h : tree.Leads path) :
    above = "" ∨ tree.HasDirectory above := by
  by_cases hne : above = ""
  · exact Or.inl hne
  right
  rcases Path.steps_parent hparent with hempty | rfl | ⟨habsolute, step, more, hsteps⟩
  · exact absurd hempty hne
  · exact tree.hasDirectory_root
  · have hstart : tree.start above = tree.start path := by rw [start, start, habsolute]
    obtain ⟨_, hpassed⟩ := tree.leads_iff.mp h
    rw [hsteps, passed_append, ← hstart] at hpassed
    refine tree.read_eq_isDirectory_iff.mpr ⟨tree.leads_iff.mpr ⟨hne, fun p hp => ?_⟩, ?_⟩
    · exact hpassed p (List.mem_append_left _ hp)
    · exact hpassed _ (List.mem_append_right _ List.mem_cons_self)

private theorem exists_ancestorsUpTo (limit : Nat) (path : String) :
    ∃ paths, Path.ancestorsUpTo limit path = path :: paths := by
  cases limit with
  | zero => exact ⟨[], rfl⟩
  | succ limit =>
    rw [Path.ancestorsUpTo]
    split
    · exact ⟨[], rfl⟩
    · exact ⟨_, rfl⟩

variable (hpath : Path.withoutSlash path = path)
include hpath

theorem makeAll_ancestors_kept {written : List Place} {last : FileTree} {limit : Nat}
    (h : tree.makeAll (Path.ancestorsUpTo limit path) = (.ok (), later))
    (hkeeps : Keeps written later last) :
    last.makeAll (Path.ancestorsUpTo limit path) = (.ok (), last) := by
  obtain ⟨paths, hpaths⟩ := exists_ancestorsUpTo limit path
  rw [hpaths] at h ⊢
  by_cases hne : path = ""
  · subst hne
    exact last.makeAll_empty paths
  · have hdirectory := hasDirectory_of_makeAll hpath hne h
    exact makeAll_of_hasDirectory hpath (hkeeps.read_isDirectory hdirectory) paths

private theorem makeAll_singleton_again {fault : FileFault}
    (h : tree.makeAll [path] = (.error fault, later)) :
    ∃ fault', later.makeAll [path] = (.error fault', later) := by
  refine makeAll_cons_again hpath ?_ ?_ (fun _ _ => Or.inl rfl) h
  · rintro t fault later ⟨⟩
    exact ⟨_, rfl⟩
  · rintro t later ⟨⟩

/-- What could not be made together with all above it cannot be made afterwards either. -/
theorem makeAll_ancestors_again {limit : Nat} {fault : FileFault}
    (h : tree.makeAll (Path.ancestorsUpTo limit path) = (.error fault, later)) :
    ∃ fault', later.makeAll (Path.ancestorsUpTo limit path) = (.error fault', later) := by
  induction limit generalizing tree later path fault with
  | zero => exact makeAll_singleton_again hpath h
  | succ limit ih =>
    rw [Path.ancestorsUpTo] at h ⊢
    cases hparent : Path.parent? path with
    | none =>
      rw [hparent] at h
      exact makeAll_singleton_again hpath h
    | some above =>
      rw [hparent] at h
      have habove := Path.withoutSlash_parent hparent
      obtain ⟨paths, hpaths⟩ := exists_ancestorsUpTo limit above
      refine makeAll_cons_again hpath ?_ ?_ ?_ h
      · exact fun t fault later h => ih habove h
      · intro t later hmade
        exact makeAll_ancestors_kept habove hmade (.refl [] later)
      · intro t hleads
        right
        rw [hpaths]
        rcases hasDirectory_parent hparent hleads with rfl | hdirectory
        · exact t.makeAll_empty paths
        · exact makeAll_of_hasDirectory habove hdirectory paths

end Ancestors
end FileTree
end Botwright
