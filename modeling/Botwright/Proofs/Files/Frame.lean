import Botwright.Files.Tree
import Mathlib.Data.List.Basic

/-!
# What becomes of a tree

A path leads to a place that its text and the working directory tell, provided that everything on
the way is a directory. A tree keeps another when its directories and files are still there and only
files at given places were written; then whatever led somewhere still leads there.
-/

namespace Botwright.FileTree

/-! ## Where paths lead -/

/-- Where a step leads. -/
def follow (here : Place) (step : String) : Place :=
  if step = "." then here else if step = ".." then here.tail else step :: here

def passed : Place → List String → List Place
  | _, [] => []
  | here, step :: rest => here :: passed (follow here step) rest

def start (tree : FileTree) (path : String) : Place :=
  if Path.isAbsolute path then [] else tree.workingPlace

/-- The place that a path names, whether or not it can be followed. -/
def place (tree : FileTree) (path : String) : Place :=
  (Path.steps path).foldl follow (tree.start path)

/-- The path can be followed to its place. -/
def Leads (tree : FileTree) (path : String) : Prop := tree.locate path = .ok (tree.place path)

section Walk

variable (tree : FileTree)

@[simp] theorem passed_append (here : Place) (steps more : List String) :
    passed here (steps ++ more) = passed here steps ++ passed (steps.foldl follow here) more := by
  induction steps generalizing here with
  | nil => rfl
  | cons step steps ih => exact congrArg (List.cons here) (ih (follow here step))

private theorem walk_cons (here : Place) (step : String) (rest : List String) :
    tree.walk here (step :: rest) =
      match tree.entryAt here with
      | none => .error .missing
      | some (.file _) => .error .notDirectory
      | some .directory => tree.walk (follow here step) rest := by
  rw [walk, follow]
  cases tree.entryAt here with
  | none => rfl
  | some entry =>
    cases entry with
    | file text => rfl
    | directory =>
      dsimp only
      split
      · rfl
      · split <;> rfl

private theorem walk_eq_ok_iff (here place : Place) (steps : List String) :
    tree.walk here steps = .ok place ↔
      (∀ p ∈ passed here steps, tree.entryAt p = some .directory) ∧
        place = steps.foldl follow here := by
  induction steps generalizing here with
  | nil =>
    rw [walk, passed, List.foldl_nil, Except.ok.injEq, eq_comm]
    exact (and_iff_right (List.forall_mem_nil _)).symm
  | cons step steps ih =>
    rw [walk_cons, passed, List.forall_mem_cons, List.foldl_cons]
    cases hentry : tree.entryAt here with
    | none => simp
    | some entry =>
      cases entry with
      | file text => simp
      | directory => simp [ih]

private theorem walk_eq_error {here : Place} {steps : List String} {fault : FileFault}
    (h : tree.walk here steps = .error fault) : fault = .missing ∨ fault = .notDirectory := by
  induction steps generalizing here with
  | nil => cases h
  | cons step steps ih =>
    rw [walk_cons] at h
    split at h
    · cases h
      exact Or.inl rfl
    · cases h
      exact Or.inr rfl
    · exact ih h

private theorem locate_of_ne_empty {path : String} (h : path ≠ "") :
    tree.locate path = tree.walk (tree.start path) (Path.steps path) := by
  rw [locate, if_neg (mt String.isEmpty_iff.mp h), start]

theorem locate_eq_ok_iff {path : String} {place : Place} :
    tree.locate path = .ok place ↔ tree.Leads path ∧ place = tree.place path := by
  constructor
  · intro h
    by_cases hne : path = ""
    · subst hne
      cases h
    · have hplace := h
      rw [locate_of_ne_empty tree hne] at hplace
      obtain rfl := ((tree.walk_eq_ok_iff _ _ _).mp hplace).2
      exact ⟨h, rfl⟩
  · rintro ⟨h, rfl⟩
    exact h

theorem leads_iff {path : String} : tree.Leads path ↔
    path ≠ "" ∧ ∀ p ∈ passed (tree.start path) (Path.steps path),
      tree.entryAt p = some .directory := by
  by_cases hne : path = ""
  · subst hne
    exact iff_of_false (fun h => by cases h) fun h => h.1 rfl
  · rw [Leads, locate_of_ne_empty tree hne, walk_eq_ok_iff]
    exact (and_iff_left rfl).trans (and_iff_right hne).symm

private theorem locate_eq_error {path : String} (h : ¬ tree.Leads path) :
    tree.locate path = .error .missing ∨ tree.locate path = .error .notDirectory ∧ path ≠ "" := by
  cases hlocate : tree.locate path with
  | ok place => exact absurd (tree.locate_eq_ok_iff.mp hlocate).1 h
  | error fault =>
    by_cases hne : path = ""
    · subst hne
      cases hlocate
      exact Or.inl rfl
    · rw [locate_of_ne_empty tree hne] at hlocate
      rcases tree.walk_eq_error hlocate with rfl | rfl
      · exact Or.inl rfl
      · exact Or.inr ⟨rfl, hne⟩

theorem read_eq_ok_iff {path text : String} :
    tree.read path = .ok text ↔
      tree.Leads path ∧ tree.entryAt (tree.place path) = some (.file text) := by
  by_cases h : tree.Leads path
  · rw [read, h, and_iff_right h]
    dsimp only
    split <;> simp [*]
  · refine iff_of_false (fun hread => ?_) fun h' => h h'.1
    rcases tree.locate_eq_error h with he | ⟨he, _⟩ <;>
    · rw [read, he] at hread
      cases hread

theorem read_eq_isDirectory_iff {path : String} :
    tree.read path = .error .isDirectory ↔
      tree.Leads path ∧ tree.entryAt (tree.place path) = some .directory := by
  by_cases h : tree.Leads path
  · rw [read, h, and_iff_right h]
    dsimp only
    split <;> simp [*]
  · refine iff_of_false (fun hread => ?_) fun h' => h h'.1
    rcases tree.locate_eq_error h with he | ⟨he, _⟩ <;>
    · rw [read, he] at hread
      cases hread

end Walk

/-! ## What is kept -/

/-- The later tree has the directories of the tree, and its files but for the written places. -/
structure Keeps (written : List Place) (tree later : FileTree) : Prop where
  workingPlace : later.workingPlace = tree.workingPlace
  directory : ∀ p, tree.entryAt p = some .directory → later.entryAt p = some .directory
  text : ∀ p, p ∉ written → ∀ text,
    later.entryAt p = some (.file text) ↔ tree.entryAt p = some (.file text)

namespace Keeps

variable {written more : List Place} {tree later last : FileTree} {path : String}

theorem refl (written : List Place) (tree : FileTree) : Keeps written tree tree :=
  ⟨rfl, fun _ h => h, fun _ _ _ => Iff.rfl⟩

theorem mono (h : Keeps written tree later) (hsub : written ⊆ more) : Keeps more tree later :=
  ⟨h.workingPlace, h.directory, fun p hp => h.text p fun hmem => hp (hsub hmem)⟩

theorem trans (h : Keeps written tree later) (h' : Keeps more later last) :
    Keeps (written ++ more) tree last := by
  refine ⟨h'.workingPlace.trans h.workingPlace, fun p hp => h'.directory p (h.directory p hp),
    fun p hp text => ?_⟩
  have hnot := mt List.mem_append.mpr hp
  rw [not_or] at hnot
  rw [h'.text p hnot.2, h.text p hnot.1]

private theorem start_eq (h : Keeps written tree later) (path : String) :
    later.start path = tree.start path := by
  rw [start, start, h.workingPlace]

theorem place_eq (h : Keeps written tree later) (path : String) :
    later.place path = tree.place path := by
  rw [place, place, h.start_eq]

theorem leads (h : Keeps written tree later) (hleads : tree.Leads path) : later.Leads path := by
  obtain ⟨hne, hpassed⟩ := tree.leads_iff.mp hleads
  refine later.leads_iff.mpr ⟨hne, fun p hp => h.directory p (hpassed p ?_)⟩
  rwa [h.start_eq] at hp

theorem read_ok (h : Keeps written tree later) {text : String} (hread : tree.read path = .ok text)
    (hplace : tree.place path ∉ written) : later.read path = .ok text := by
  obtain ⟨hleads, hentry⟩ := tree.read_eq_ok_iff.mp hread
  refine later.read_eq_ok_iff.mpr ⟨h.leads hleads, ?_⟩
  rw [h.place_eq]
  exact (h.text _ hplace text).mpr hentry

theorem read_isDirectory (h : Keeps written tree later)
    (hread : tree.read path = .error .isDirectory) : later.read path = .error .isDirectory := by
  obtain ⟨hleads, hentry⟩ := tree.read_eq_isDirectory_iff.mp hread
  refine later.read_eq_isDirectory_iff.mpr ⟨h.leads hleads, ?_⟩
  rw [h.place_eq]
  exact h.directory _ hentry

end Keeps

/-! ## Entries that are put -/

section Put

variable {tree : FileTree} {place : Place}

theorem ne_root (h : tree.entryAt place ≠ some .directory) : place ≠ [] := by
  rintro rfl
  exact h rfl

theorem ne_root_of_none (h : tree.entryAt place = none) : place ≠ [] := by
  apply ne_root
  rw [h]
  rintro ⟨⟩

private theorem keeps_put_file (h : tree.entryAt place ≠ some .directory) (text : String) :
    Keeps [place] tree (tree.put place (.file text)) := by
  have hplace := ne_root h
  refine ⟨rfl, ?_, ?_⟩
  · intro p hp
    grind
  · intro p hp text'
    grind

theorem keeps_put_directory (h : tree.entryAt place = none) :
    Keeps [] tree (tree.put place .directory) := by
  have hplace := ne_root_of_none h
  refine ⟨rfl, ?_, ?_⟩
  · intro p hp
    grind
  · intro p _ text
    grind

end Put

/-! ## Writing -/

/-- Of all directories, the later tree has those of the tree. -/
structure Writes (written : List Place) (tree later : FileTree) : Prop
    extends Keeps written tree later where
  noDirectory : ∀ p, later.entryAt p = some .directory → tree.entryAt p = some .directory

namespace Writes

variable {written more : List Place} {tree later last : FileTree} {path : String}

theorem refl (written : List Place) (tree : FileTree) : Writes written tree tree :=
  ⟨.refl written tree, fun _ h => h⟩

theorem trans (h : Writes written tree later) (h' : Writes more later last) :
    Writes (written ++ more) tree last :=
  ⟨h.toKeeps.trans h'.toKeeps, fun p hp => h.noDirectory p (h'.noDirectory p hp)⟩

private theorem entryAt_iff (h : Writes written tree later) (p : Place) :
    later.entryAt p = some .directory ↔ tree.entryAt p = some .directory :=
  ⟨h.noDirectory p, h.directory p⟩

theorem leads_iff (h : Writes written tree later) : later.Leads path ↔ tree.Leads path := by
  rw [FileTree.leads_iff, FileTree.leads_iff, h.start_eq]
  simp only [h.entryAt_iff]

theorem read_ok_iff (h : Writes written tree later) (hplace : tree.place path ∉ written)
    {text : String} : later.read path = .ok text ↔ tree.read path = .ok text := by
  rw [read_eq_ok_iff, read_eq_ok_iff, h.leads_iff, h.place_eq, h.text _ hplace]

end Writes

/-- A write succeeds where its path leads to anything but a directory. -/
def Writable (tree : FileTree) (path : String) : Prop :=
  tree.Leads path ∧ tree.entryAt (tree.place path) ≠ some .directory

theorem write_of_writable {tree : FileTree} {path : String} (h : tree.Writable path)
    (text : String) :
    tree.write path text = (.ok (), tree.put (tree.place path) (.file text)) := by
  rw [write, h.1]
  dsimp only
  split
  · rename_i hentry
    exact absurd hentry h.2
  · rfl

theorem write_of_not_writable {tree : FileTree} {path : String} (h : ¬ tree.Writable path)
    (text : String) : ∃ fault, tree.write path text = (.error fault, tree) := by
  by_cases hleads : tree.Leads path
  · have hentry : tree.entryAt (tree.place path) = some .directory :=
      not_not.mp fun hentry => h ⟨hleads, hentry⟩
    refine ⟨.isDirectory, ?_⟩
    rw [write, hleads]
    dsimp only
    rw [hentry]
  · rcases tree.locate_eq_error hleads with he | ⟨he, _⟩
    · exact ⟨.missing, by rw [write, he]⟩
    · exact ⟨.notDirectory, by rw [write, he]⟩

theorem Writable.writes {tree : FileTree} {path : String} (h : tree.Writable path)
    (text : String) :
    Writes [tree.place path] tree (tree.put (tree.place path) (.file text)) := by
  refine ⟨keeps_put_file h.2 text, fun p hp => ?_⟩
  rw [entryAt_put _ _ _ _ (ne_root h.2)] at hp
  split at hp
  · cases hp
  · exact hp

theorem Writable.read_put {tree : FileTree} {path : String} (h : tree.Writable path)
    (text : String) : (tree.put (tree.place path) (.file text)).read path = .ok text := by
  refine (read_eq_ok_iff _).mpr ⟨(h.writes text).toKeeps.leads h.1, ?_⟩
  rw [(h.writes text).toKeeps.place_eq, entryAt_put_self _ _ _ (ne_root h.2)]

theorem Writes.writable_iff {written : List Place} {tree later : FileTree} {path : String}
    (h : Writes written tree later) : later.Writable path ↔ tree.Writable path := by
  rw [Writable, Writable, h.leads_iff, h.place_eq, Ne, h.entryAt_iff]

end Botwright.FileTree
