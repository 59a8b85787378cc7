import Botwright.Command.Report
import Botwright.Proofs.Files.System

/-!
# Writing files

A file is written after the directories above it were made. Whatever fails of that, no text is
lost. In a tree, whether the directories can be made is told by the path above the file, and stays
as it is whatever is written into them.
-/

namespace Botwright.Command

open FileSystem

/-! ## Any file system -/

section Store

variable {φ : Type} [FileStore (StateM φ)]

private theorem makeAbove_cases (path : String) :
    (∀ fs : φ, makeAbove (m := StateM φ) path fs = (.ok (), fs)) ∨
    ∃ above, Path.parent? path = some above ∧
      ∀ fs : φ, makeAbove (m := StateM φ) path fs =
        ((FileStore.makeDirectories (m := StateM φ) (Path.ancestors above) fs).1.mapError
            (uncreatable above),
          (FileStore.makeDirectories (m := StateM φ) (Path.ancestors above) fs).2) := by
  unfold makeAbove
  cases hparent : Path.parent? path with
  | none => exact Or.inl fun fs => rfl
  | some above =>
    by_cases hempty : above.isEmpty = true
    · left
      intro fs
      rw [Option.filter_some, hempty]
      rfl
    · right
      refine ⟨above, rfl, fun fs => ?_⟩
      rw [Option.filter_some, Bool.eq_false_iff.mpr hempty]
      rfl

def pathsAbove (path : String) : List String := (Path.parent? path).elim [] Path.ancestors

variable {π : Type} [FileSystem φ π] [LawfulFileSystem φ]

private theorem extends_makeAbove (path : String) (fs : φ) :
    Extends (pathsAbove path) fs (makeAbove (m := StateM φ) path fs).2 := by
  rcases makeAbove_cases (φ := φ) path with hnothing | ⟨above, hparent, hmade⟩
  · rw [hnothing]
    exact .refl _ fs
  · have hslash := Path.withoutSlash_of_mem_ancestors (Path.withoutSlash_parent hparent)
      above.length
    have hpaths : (Path.ancestors above).map Path.withoutSlash = pathsAbove path := by
      rw [pathsAbove, hparent]
      exact (List.map_congr_left hslash).trans (List.map_id _)
    rw [hmade, ← hpaths]
    exact extends_makeDirectories (Path.ancestors above) fs

/-- A file is written at its path, or nothing but directories above it is made. -/
theorem writeFile_cases (path text : String) (fs : φ) :
    (∃ reason later,
      writeFile (m := StateM φ) path text fs = (.error (.inputOutput reason), later) ∧
      Extends (pathsAbove path) fs later) ∨
    ∃ made later, writeFile (m := StateM φ) path text fs = (.ok (), later) ∧
      Extends (pathsAbove path) fs made ∧ Stores path text made later := by
  have habove := extends_makeAbove path fs
  have hfailed := LawfulFileSystem.write_extends path text (makeAbove (m := StateM φ) path fs).2
  have hstored := LawfulFileSystem.write_stores path text (makeAbove (m := StateM φ) path fs).2
  rw [writeFile, bind_apply]
  cases hmade : (makeAbove (m := StateM φ) path fs).1 with
  | error reason =>
    left
    rcases makeAbove_cases (φ := φ) path with hnothing | ⟨above, _, hall⟩
    · rw [hnothing] at hmade
      cases hmade
    · rw [hall] at hmade
      cases hfault : (FileStore.makeDirectories (m := StateM φ) (Path.ancestors above) fs).1 with
      | ok _ =>
        rw [hfault] at hmade
        cases hmade
      | error fault =>
        rw [hfault] at hmade
        cases hmade
        exact ⟨_, _, rfl, habove⟩
  | ok _ =>
    dsimp only
    rw [bind_apply]
    cases hwritten : (FileStore.write (m := StateM φ) path text
        (makeAbove (m := StateM φ) path fs).2).1 with
    | error fault =>
      left
      exact ⟨_, _, rfl, habove.trans ((hfailed fault hwritten).mono (List.nil_subset _))⟩
    | ok _ =>
      right
      exact ⟨_, _, rfl, habove, hstored hwritten⟩

end Store

/-! ## File trees -/

open FileTree

section Above

variable {tree later : FileTree} {path : String}

theorem makeAbove_congr {path' : String} (h : Path.parent? path = Path.parent? path') :
    makeAbove (m := StateM FileTree) path = makeAbove path' := by
  rw [makeAbove, makeAbove, h]

theorem keeps_makeAbove (tree : FileTree) (path : String) :
    Keeps [] tree (makeAbove (m := StateM FileTree) path tree).2 := by
  rcases makeAbove_cases (φ := FileTree) path with h | ⟨above, _, h⟩
  · rw [h]
    exact .refl [] tree
  · rw [h]
    exact keeps_makeAll tree (Path.ancestors above)

theorem makeAbove_kept {written : List Place} {last : FileTree}
    (h : makeAbove (m := StateM FileTree) path tree = (.ok (), later))
    (hkeeps : Keeps written later last) :
    makeAbove (m := StateM FileTree) path last = (.ok (), last) := by
  rcases makeAbove_cases (φ := FileTree) path with hnothing | ⟨above, hparent, hmade⟩
  · exact hnothing last
  · change ∀ t : FileTree, _ = ((t.makeAll (Path.ancestors above)).1.mapError _,
      (t.makeAll (Path.ancestors above)).2) at hmade
    rw [hmade] at h ⊢
    cases hall : tree.makeAll (Path.ancestors above) with
    | mk result made =>
      rw [hall] at h
      cases result with
      | error fault => cases h
      | ok _ =>
        cases h
        rw [Path.ancestors] at hall ⊢
        rw [makeAll_ancestors_kept (Path.withoutSlash_parent hparent) hall hkeeps]
        rfl

theorem makeAbove_again {reason : Failure}
    (h : makeAbove (m := StateM FileTree) path tree = (.error reason, later)) :
    ∃ reason', makeAbove (m := StateM FileTree) path later =
      (.error reason', later) := by
  rcases makeAbove_cases (φ := FileTree) path with hnothing | ⟨above, hparent, hmade⟩
  · rw [hnothing] at h
    cases h
  · change ∀ t : FileTree, _ = ((t.makeAll (Path.ancestors above)).1.mapError _,
      (t.makeAll (Path.ancestors above)).2) at hmade
    rw [hmade] at h
    cases hall : tree.makeAll (Path.ancestors above) with
    | mk result made =>
      rw [hall] at h
      cases result with
      | ok _ => cases h
      | error fault =>
        cases h
        rw [Path.ancestors] at hall
        obtain ⟨fault', hagain⟩ :=
          makeAll_ancestors_again (Path.withoutSlash_parent hparent) hall
        refine ⟨uncreatable above fault', ?_⟩
        rw [hmade, Path.ancestors, hagain]
        rfl

end Above

section WriteFile

variable {tree made : FileTree} {path : String}

theorem writeFile_of_error {reason : Failure}
    (h : makeAbove (m := StateM FileTree) path tree = (.error reason, made))
    (text : String) :
    writeFile (m := StateM FileTree) path text tree =
      (.error reason, made) := by
  rw [writeFile, bind_apply, h]
  rfl

theorem writeFile_of_ok
    (h : makeAbove (m := StateM FileTree) path tree = (.ok (), made))
    (text : String) :
    writeFile (m := StateM FileTree) path text tree =
      ((made.write path text).1.mapError (unwritable path), (made.write path text).2) := by
  rw [writeFile, bind_apply, h]
  rfl

theorem workingPlace_writeFile (path text : String) (tree : FileTree) :
    (writeFile (m := StateM FileTree) path text tree).2.workingPlace = tree.workingPlace := by
  have habove := (keeps_makeAbove tree path).workingPlace
  cases hmade : makeAbove (m := StateM FileTree) path tree with
  | mk result made =>
    rw [hmade] at habove
    cases result with
    | error reason =>
      rw [writeFile_of_error hmade]
      exact habove
    | ok _ =>
      rw [writeFile_of_ok hmade]
      by_cases hwritable : made.Writable path
      · rw [write_of_writable hwritable]
        exact habove
      · obtain ⟨fault, hfailed⟩ := write_of_not_writable hwritable text
        rw [hfailed]
        exact habove

end WriteFile
end Botwright.Command
