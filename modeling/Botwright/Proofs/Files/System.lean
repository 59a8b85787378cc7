import Botwright.Proofs.Files.Directories

/-!
# File systems

What a command may rely on, whatever lets an operation of its own file system fail: reading changes
nothing, directories are made where nothing stood, a failed write leaves all as it was, and a text
is stored at the one place that its path leads to. A path that leads to a place leads there for
good. File trees are file systems of this kind.
-/

namespace Botwright

def FileEntry.text? : FileEntry → Option String
  | file text => some text
  | directory => none

/-- The files behind a store: what stands at their places, and where paths lead. -/
class FileSystem (φ : Type) (π : outParam Type) where
  entryAt : φ → π → Option FileEntry
  locate? : φ → String → Option π

namespace FileSystem

variable {φ π : Type} [FileSystem φ π]

/-- The text of the file at a place. -/
def contentAt (fs : φ) (p : π) : Option String := (entryAt fs p).bind FileEntry.text?

/-- All is as it was, except that directories stand where given paths lead and nothing stood. -/
structure Extends (paths : List String) (fs later : φ) : Prop where
  located : ∀ path p, locate? fs path = some p → locate? later path = some p
  entry : ∀ p, entryAt later p = entryAt fs p ∨
    entryAt fs p = none ∧ entryAt later p = some .directory ∧
      ∃ path ∈ paths, locate? later path = some p

/-- All is as it was, except that the text of a file is the given one where the path leads. -/
structure Stores (path text : String) (fs later : φ) : Prop where
  located : ∀ path p, locate? fs path = some p → locate? later path = some p
  entry : ∃ p, locate? later path = some p ∧ entryAt later p = some (.file text) ∧
    entryAt fs p ≠ some .directory ∧ ∀ q, q ≠ p → entryAt later q = entryAt fs q

theorem contentAt_ne_none_iff {fs : φ} {p : π} :
    contentAt fs p ≠ none ↔ ∃ text, entryAt fs p = some (.file text) := by
  rw [contentAt]
  cases entryAt fs p with
  | none => simp
  | some entry => cases entry <;> simp [FileEntry.text?]

end FileSystem

open FileSystem

/-- What a file system owes its users. Its operations may fail for any reason. -/
class LawfulFileSystem (φ : Type) {π : outParam Type} [FileStore (StateM φ)] [FileSystem φ π] :
    Prop where
  read_extends : ∀ (path : String) (fs : φ),
    Extends [] fs (FileStore.read (m := StateM φ) path fs).2
  /-- What stands at a path is not reported as missing. -/
  read_present : ∀ (path : String) (fs : φ) (p : π) (entry : FileEntry),
    locate? fs path = some p → entryAt fs p = some entry →
      (FileStore.read (m := StateM φ) path fs).1 ≠ .error .missing ∧
      (FileStore.read (m := StateM φ) path fs).1 ≠ .error .notDirectory
  makeDirectory_extends : ∀ (path : String) (fs : φ),
    Extends [Path.withoutSlash path] fs (FileStore.makeDirectory (m := StateM φ) path fs).2
  write_extends : ∀ (path text : String) (fs : φ) (fault : FileFault),
    (FileStore.write (m := StateM φ) path text fs).1 = .error fault →
      Extends [] fs (FileStore.write (m := StateM φ) path text fs).2
  write_stores : ∀ (path text : String) (fs : φ),
    (FileStore.write (m := StateM φ) path text fs).1 = .ok () →
      Stores path text fs (FileStore.write (m := StateM φ) path text fs).2

namespace FileSystem

variable {φ π : Type} [FileSystem φ π] {paths more : List String} {fs later last : φ}

namespace Extends

theorem refl (paths : List String) (fs : φ) : Extends paths fs fs :=
  ⟨fun _ _ h => h, fun _ => Or.inl rfl⟩

theorem mono (h : Extends paths fs later) (hsub : paths ⊆ more) : Extends more fs later := by
  refine ⟨h.located, fun p => ?_⟩
  rcases h.entry p with hsame | ⟨hnone, hmade, path, hpath, hleads⟩
  · exact Or.inl hsame
  · exact Or.inr ⟨hnone, hmade, path, hsub hpath, hleads⟩

theorem trans (h : Extends paths fs later) (h' : Extends paths later last) :
    Extends paths fs last := by
  refine ⟨fun path p hp => h'.located path p (h.located path p hp), fun p => ?_⟩
  rcases h.entry p with hsame | ⟨hnone, hmade, path, hpath, hleads⟩
  · rw [← hsame]
    exact h'.entry p
  · rcases h'.entry p with hsame' | ⟨hnone', _⟩
    · exact Or.inr ⟨hnone, hsame'.trans hmade, path, hpath, h'.located path p hleads⟩
    · rw [hmade] at hnone'
      cases hnone'

theorem entryAt_eq (h : Extends [] fs later) (p : π) : entryAt later p = entryAt fs p := by
  rcases h.entry p with hsame | ⟨_, _, path, hpath, _⟩
  · exact hsame
  · cases hpath

theorem entryAt_of_ne_none (h : Extends paths fs later) {p : π} (hp : entryAt fs p ≠ none) :
    entryAt later p = entryAt fs p := by
  rcases h.entry p with hsame | ⟨hnone, _⟩
  · exact hsame
  · exact absurd hnone hp

theorem contentAt_eq (h : Extends paths fs later) (p : π) :
    contentAt later p = contentAt fs p := by
  rcases h.entry p with hsame | ⟨hnone, hmade, _⟩
  · rw [contentAt, contentAt, hsame]
  · rw [contentAt, contentAt, hnone, hmade]
    rfl

end Extends

theorem Stores.contentAt_eq {path text : String} (h : Stores path text fs later) {p : π}
    (hp : locate? later path ≠ some p) : contentAt later p = contentAt fs p := by
  obtain ⟨_, place, hplace, _, _, hothers⟩ := h
  have hne : p ≠ place := by
    rintro rfl
    exact hp hplace
  rw [contentAt, contentAt, hothers p hne]

section Store

variable [FileStore (StateM φ)] [LawfulFileSystem φ]

private theorem extends_isDirectory (path : String) (fs : φ) :
    Extends [] fs (FileStore.isDirectory (m := StateM φ) path fs).2 := by
  have hread := LawfulFileSystem.read_extends path fs
  rw [FileStore.isDirectory, bind_apply]
  cases (FileStore.read (m := StateM φ) path fs).1 with
  | ok text => exact hread
  | error fault => cases fault <;> exact hread

theorem extends_isPresent (path : String) (fs : φ) :
    Extends [] fs (FileStore.isPresent (m := StateM φ) path fs).2 := by
  have hread := LawfulFileSystem.read_extends path fs
  rw [FileStore.isPresent, bind_apply]
  cases (FileStore.read (m := StateM φ) path fs).1 with
  | ok text => exact hread
  | error fault => cases fault <;> exact hread

theorem isPresent_of_entryAt {path : String} {p : π} (hp : locate? fs path = some p)
    (hentry : entryAt fs p ≠ none) : (FileStore.isPresent (m := StateM φ) path fs).1 = true := by
  obtain ⟨entry, hentry⟩ := Option.ne_none_iff_exists'.mp hentry
  obtain ⟨hmissing, hnotDirectory⟩ := LawfulFileSystem.read_present path fs p entry hp hentry
  rw [FileStore.isPresent, bind_apply]
  cases hread : (FileStore.read (m := StateM φ) path fs).1 with
  | ok text => rfl
  | error fault =>
    rw [hread] at hmissing hnotDirectory
    cases fault with
    | missing => exact absurd rfl hmissing
    | notDirectory => exact absurd rfl hnotDirectory
    | _ => rfl

private theorem extends_settleDirectory (path : String) (made : Except FileFault Unit) (fs : φ) :
    Extends [] fs (FileStore.settleDirectory (m := StateM φ) path made fs).2 := by
  cases made with
  | ok _ => exact .refl [] fs
  | error fault =>
    have hdirectory := extends_isDirectory path fs
    rw [FileStore.settleDirectory, bind_apply]
    cases (FileStore.isDirectory (m := StateM φ) path fs).1 <;> exact hdirectory

/-- Whatever becomes of making nested directories, nothing is lost, and no file is made. -/
theorem extends_makeDirectories (paths : List String) (fs : φ) :
    Extends (paths.map Path.withoutSlash) fs
      (FileStore.makeDirectories (m := StateM φ) paths fs).2 := by
  induction paths generalizing fs with
  | nil => exact .refl [] fs
  | cons path paths ih =>
    have hfirst : [Path.withoutSlash path] ⊆ (path :: paths).map Path.withoutSlash := by simp
    have hrest : paths.map Path.withoutSlash ⊆ (path :: paths).map Path.withoutSlash := by simp
    have hmade (fs : φ) := (LawfulFileSystem.makeDirectory_extends path fs).mono hfirst
    have hsettled (made : Except FileFault Unit) (fs : φ) :=
      (extends_settleDirectory path made fs).mono
        (List.nil_subset ((path :: paths).map Path.withoutSlash))
    rw [FileStore.makeDirectories]
    by_cases hempty : path.isEmpty = true
    · rw [if_pos hempty]
      exact .refl _ fs
    · rw [if_neg hempty, bind_apply]
      have habove := (ih (FileStore.makeDirectory (m := StateM φ) path fs).2).mono hrest
      have hsecond := (hmade fs).trans habove
      cases (FileStore.makeDirectory (m := StateM φ) path fs).1 with
      | ok _ => exact (hmade fs).trans (hsettled (.ok ()) _)
      | error fault =>
        cases fault with
        | missing =>
          dsimp only
          rw [bind_apply]
          cases (FileStore.makeDirectories (m := StateM φ) paths
              (FileStore.makeDirectory (m := StateM φ) path fs).2).1 with
          | error fault => exact hsecond
          | ok _ => exact (hsecond.trans (hmade _)).trans (hsettled _ _)
        | _ => exact (hmade fs).trans (hsettled _ _)

end Store
end FileSystem

/-! ## File trees -/

namespace FileTree

instance : FileSystem FileTree Place where
  entryAt := entryAt
  locate? tree path := (tree.locate path).toOption

theorem locate?_eq_some_iff {tree : FileTree} {path : String} {p : Place} :
    locate? tree path = some p ↔ tree.Leads path ∧ p = tree.place path := by
  have hlocate : locate? tree path = (tree.locate path).toOption := rfl
  rw [← locate_eq_ok_iff, hlocate]
  cases tree.locate path <;> simp [Except.toOption]

theorem Keeps.located {written : List Place} {tree later : FileTree} (h : Keeps written tree later)
    (path : String) (p : Place) (hp : locate? tree path = some p) :
    locate? later path = some p := by
  obtain ⟨hleads, rfl⟩ := locate?_eq_some_iff.mp hp
  exact locate?_eq_some_iff.mpr ⟨h.leads hleads, (h.place_eq path).symm⟩

private theorem read_present {tree : FileTree} {path : String} {p : Place} {entry : FileEntry}
    (hp : locate? tree path = some p) (hentry : tree.entryAt p = some entry) :
    tree.read path ≠ .error .missing ∧ tree.read path ≠ .error .notDirectory := by
  obtain ⟨hleads, rfl⟩ := locate?_eq_some_iff.mp hp
  cases entry with
  | file text => simp [tree.read_eq_ok_iff.mpr ⟨hleads, hentry⟩]
  | directory => simp [tree.read_eq_isDirectory_iff.mpr ⟨hleads, hentry⟩]

private theorem extends_makeDirectory (tree : FileTree) (path : String) :
    Extends [Path.withoutSlash path] tree (tree.makeDirectory path).2 := by
  rcases tree.makeDirectory_cases path with ⟨place, hlocate, hnone, hmade⟩ | ⟨fault, hmade⟩
  · have hkeeps := keeps_put_directory hnone
    have hleads : locate? tree (Path.withoutSlash path) = some place :=
      locate?_eq_some_iff.mpr (tree.locate_eq_ok_iff.mp hlocate)
    rw [hmade]
    refine ⟨hkeeps.located, fun p => ?_⟩
    have hput : entryAt (tree.put place .directory) p =
        if place = p then some .directory else entryAt tree p :=
      entryAt_put place p .directory tree (ne_root_of_none hnone)
    by_cases hp : place = p
    · subst hp
      rw [if_pos rfl] at hput
      exact Or.inr ⟨hnone, hput, _, List.mem_cons_self, hkeeps.located _ _ hleads⟩
    · rw [if_neg hp] at hput
      exact Or.inl hput
  · rw [hmade]
    exact .refl _ tree

instance : LawfulFileSystem FileTree where
  read_extends path tree := .refl [] tree
  read_present path tree p entry hp hentry := read_present hp hentry
  makeDirectory_extends path tree := tree.extends_makeDirectory path
  write_extends path text tree fault hfault := by
    by_cases hwritable : tree.Writable path
    · have hwrite : (tree.write path text).1 = .error fault := hfault
      rw [write_of_writable hwritable] at hwrite
      cases hwrite
    · obtain ⟨_, hwrite⟩ := write_of_not_writable hwritable text
      have hsame : (FileStore.write (m := StateM FileTree) path text tree).2 = tree :=
        congrArg Prod.snd hwrite
      rw [hsame]
      exact .refl [] tree
  write_stores path text tree hok := by
    by_cases hwritable : tree.Writable path
    · have hwrite : (FileStore.write (m := StateM FileTree) path text tree).2 =
          tree.put (tree.place path) (.file text) :=
        congrArg Prod.snd (write_of_writable hwritable text)
      have hkeeps := (hwritable.writes text).toKeeps
      have hput (p : Place) := entryAt_put (tree.place path) p (.file text) tree
        (ne_root hwritable.2)
      have hleads : locate? tree path = some (tree.place path) :=
        locate?_eq_some_iff.mpr ⟨hwritable.1, rfl⟩
      rw [hwrite]
      refine ⟨hkeeps.located, tree.place path, hkeeps.located _ _ hleads, ?_, hwritable.2, ?_⟩
      · exact (hput _).trans (if_pos rfl)
      · intro q hq
        exact (hput q).trans (if_neg hq.symm)
    · obtain ⟨fault, hwrite⟩ := write_of_not_writable hwritable text
      have hfault : (tree.write path text).1 = .ok () := hok
      rw [hwrite] at hfault
      cases hfault

end FileTree
end Botwright
