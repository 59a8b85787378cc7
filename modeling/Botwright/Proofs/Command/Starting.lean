import Botwright.Command.Init
import Botwright.Proofs.Command.Writing
import Botwright.Proofs.Files.Closed

/-!
# Starting agents

A starter specification is written where nothing was, and nothing else is written. Whether something
is there is asked before directories are made, so it is not seen that a path such as `new/../file`
will lead to a file once they are.
-/

namespace Botwright.Command

open FileSystem

/-- What an agent is started with. -/
structure Start where
  name : Option String
  cloud : String
  directory : String

namespace Start

def slug (start : Start) : String := start.name.getD Starter.defaultSlug

def path (start : Start) : String := Path.join start.directory (start.slug ++ ".yaml")

def text (start : Start) : String := Yaml.print (Starter.agent start.slug start.cloud).toJson

def refusal (start : Start) : Failure :=
  .inputOutput ("'" ++ start.path ++ "' already exists; pass --force to overwrite")

section Store

variable {φ π : Type} [FileStore (StateM φ)]

def run (start : Start) (force : Bool) : StateM φ CommandResult :=
  init start.name start.cloud start.directory force

def report (start : Start) (written : Except Failure Unit) : CommandResult :=
  match written with
  | .error reason => .failed reason
  | .ok () => ⟨[.created start.path], .ok true⟩

private theorem run_of_guard {start : Start} {force : Bool} {fs : φ}
    (h : (!force && (FileStore.isPresent (m := StateM φ) start.path fs).1) = true) :
    start.run force fs =
      (.failed start.refusal, (FileStore.isPresent (m := StateM φ) start.path fs).2) := by
  rw [run, init, bind_apply]
  exact congrFun (if_pos h) _

private theorem run_of_written {start : Start} {force : Bool} {fs later : φ}
    {written : Except Failure Unit}
    (h : (!force && (FileStore.isPresent (m := StateM φ) start.path fs).1) = false)
    (hwrite : writeFile (m := StateM φ) start.path start.text
      (FileStore.isPresent (m := StateM φ) start.path fs).2 = (written, later)) :
    start.run force fs = (start.report written, later) := by
  simp only [path, text, slug] at h hwrite
  rw [run, init, bind_apply, h, if_neg Bool.false_ne_true, bind_apply, hwrite]
  cases written <;> rfl

variable [FileSystem φ π]

/-- Something is where the path leads. -/
def IsPresent (start : Start) (fs : φ) : Prop :=
  ∃ p, locate? fs start.path = some p ∧ entryAt fs p ≠ none

/-- The path, which led nowhere, in the end leads to a file that was there all along. -/
def Uncovers (start : Start) (fs : φ) : Prop :=
  locate? fs start.path = none ∧
    ∃ p, locate? (start.run false fs).2 start.path = some p ∧ contentAt fs p ≠ none

def Adds (start : Start) (fs later : φ) : Prop :=
  ∃ p, locate? later start.path = some p ∧ entryAt fs p = none ∧
    entryAt later p = some (.file start.text) ∧
    ∀ q, q ≠ p → entryAt later q = entryAt fs q ∨
      entryAt fs q = none ∧ entryAt later q = some .directory ∧
        ∃ above ∈ pathsAbove start.path, locate? later above = some q

variable [LawfulFileSystem φ] {start : Start} {fs : φ}

/-- An agent is not started where something is. Otherwise, or if that does not matter, the starter
specification is written, or nothing but directories above it is made. -/
theorem run_cases (start : Start) (force : Bool) (fs : φ) :
    (force = false ∧ (start.run force fs).1 = .failed start.refusal ∧
      Extends [] fs (start.run force fs).2) ∨
    ((start.IsPresent fs → force = true) ∧
      ((∃ reason, (start.run force fs).1 = .failed (.inputOutput reason) ∧
          Extends (pathsAbove start.path) fs (start.run force fs).2) ∨
        ∃ made, (start.run force fs).1 = ⟨[.created start.path], .ok true⟩ ∧
          Extends (pathsAbove start.path) fs made ∧
          Stores start.path start.text made (start.run force fs).2)) := by
  have hasked := extends_isPresent start.path fs
  cases hguard : !force && (FileStore.isPresent (m := StateM φ) start.path fs).1 with
  | true =>
    left
    obtain ⟨hforce, _⟩ := Bool.and_eq_true_iff.mp hguard
    rw [run_of_guard hguard]
    exact ⟨by simpa using hforce, rfl, hasked⟩
  | false =>
    right
    refine ⟨fun hpresent => ?_, ?_⟩
    · obtain ⟨p, hp, hentry⟩ := hpresent
      rw [isPresent_of_entryAt hp hentry, Bool.and_true, Bool.not_eq_false'] at hguard
      exact hguard
    · have hnone := List.nil_subset (pathsAbove start.path)
      rcases writeFile_cases start.path start.text
          (FileStore.isPresent (m := StateM φ) start.path fs).2 with
        ⟨reason, later, hwrite, hextends⟩ | ⟨made, later, hwrite, hextends, hstores⟩
      · left
        rw [run_of_written hguard hwrite]
        exact ⟨reason, rfl, (hasked.mono hnone).trans hextends⟩
      · right
        rw [run_of_written hguard hwrite]
        exact ⟨made, rfl, (hasked.mono hnone).trans hextends, hstores⟩

private theorem run_located (start : Start) (force : Bool) (fs : φ) {path : String} {p : π}
    (hp : locate? fs path = some p) : locate? (start.run force fs).2 path = some p := by
  rcases start.run_cases force fs with
    ⟨_, _, hsame⟩ | ⟨_, ⟨_, _, hextends⟩ | ⟨made, _, hextends, hstores⟩⟩
  · exact hsame.located path p hp
  · exact hextends.located path p hp
  · exact hstores.located path p (hextends.located path p hp)

private theorem leads_of_changed (start : Start) (force : Bool) (fs : φ) {p : π}
    (h : contentAt (start.run force fs).2 p ≠ contentAt fs p) :
    locate? (start.run force fs).2 start.path = some p := by
  rcases start.run_cases force fs with
    ⟨_, _, hsame⟩ | ⟨_, ⟨_, _, hextends⟩ | ⟨made, _, hextends, hstores⟩⟩
  · exact absurd (hsame.contentAt_eq p) h
  · exact absurd (hextends.contentAt_eq p) h
  · rw [← hextends.contentAt_eq p] at h
    by_contra hleads
    exact h (hstores.contentAt_eq hleads)

private theorem run_of_isPresent (h : start.IsPresent fs) :
    (start.run false fs).1 = .failed start.refusal ∧ Extends [] fs (start.run false fs).2 := by
  rcases start.run_cases false fs with ⟨_, hrefused⟩ | ⟨hforce, _⟩
  · exact hrefused
  · cases hforce h

private theorem isPresent_of_not_uncovers (h : ¬ start.Uncovers fs) {p : π}
    (hp : locate? (start.run false fs).2 start.path = some p) (hcontent : contentAt fs p ≠ none) :
    start.IsPresent fs := by
  cases hlocate : locate? fs start.path with
  | none => exact absurd ⟨hlocate, p, hp, hcontent⟩ h
  | some p' =>
    have hsame := start.run_located false fs hlocate
    rw [hp] at hsame
    cases hsame
    obtain ⟨text, hentry⟩ := contentAt_ne_none_iff.mp hcontent
    exact ⟨p, hlocate, by rw [hentry]; exact Option.some_ne_none _⟩

private theorem contentAt_run (h : ¬ start.Uncovers fs) {p : π} {text : String}
    (hcontent : contentAt fs p = some text) : contentAt (start.run false fs).2 p = some text := by
  by_contra hchanged
  rw [← hcontent] at hchanged
  have hleads := start.leads_of_changed false fs hchanged
  have hpresent := isPresent_of_not_uncovers h hleads (by simp [hcontent])
  exact hchanged ((run_of_isPresent hpresent).2.contentAt_eq p)

private theorem run_of_not_isPresent (huncovers : ¬ start.Uncovers fs) (h : ¬ start.IsPresent fs) :
    (∃ reason, (start.run false fs).1 = .failed (.inputOutput reason) ∧
      Extends (pathsAbove start.path) fs (start.run false fs).2) ∨
    ((start.run false fs).1 = ⟨[.created start.path], .ok true⟩ ∧
      start.Adds fs (start.run false fs).2) := by
  rcases start.run_cases false fs with
    ⟨_, hrefused, hsame⟩ | ⟨_, hfailed | ⟨made, hcreated, hextends, hstores⟩⟩
  · exact Or.inl ⟨_, hrefused, hsame.mono (List.nil_subset _)⟩
  · exact Or.inl hfailed
  · right
    obtain ⟨p, hp, hwritten, hplace, hothers⟩ := hstores.entry
    refine ⟨hcreated, p, hp, ?_, hwritten, fun q hq => ?_⟩
    · cases hentry : entryAt fs p with
      | none => rfl
      | some entry =>
        cases entry with
        | file text =>
          have hcontent := contentAt_ne_none_iff.mpr ⟨text, hentry⟩
          exact absurd (isPresent_of_not_uncovers huncovers hp hcontent) h
        | directory =>
          have hkept := hextends.entryAt_of_ne_none (by rw [hentry]; exact Option.some_ne_none _)
          exact absurd (hkept.trans hentry) hplace
    · rw [hothers q hq]
      rcases hextends.entry q with hsame | ⟨hnone, hmade, above, habove, hleads⟩
      · exact Or.inl hsame
      · exact Or.inr ⟨hnone, hmade, above, habove, hstores.located above q hleads⟩

private theorem entryAt_run_ne_directory (start : Start) (force : Bool) (fs : φ) {p : π}
    (hcontent : contentAt fs p ≠ none) :
    entryAt (start.run force fs).2 p ≠ some .directory := by
  obtain ⟨text, hentry⟩ := contentAt_ne_none_iff.mp hcontent
  have hne : entryAt fs p ≠ none := by
    rw [hentry]
    exact Option.some_ne_none _
  have hfile : entryAt fs p ≠ some .directory := by
    rw [hentry]
    simp
  rcases start.run_cases force fs with
    ⟨_, _, hsame⟩ | ⟨_, ⟨_, _, hextends⟩ | ⟨made, _, hextends, hstores⟩⟩
  · rwa [hsame.entryAt_of_ne_none hne]
  · rwa [hextends.entryAt_of_ne_none hne]
  · obtain ⟨place, _, hwritten, _, hothers⟩ := hstores.entry
    by_cases hplace : p = place
    · rw [hplace, hwritten]
      simp
    · rwa [hothers p hplace, hextends.entryAt_of_ne_none hne]

/-! ## One after another -/

/-- The files after agents are started one by one, never over a file. -/
def runAll : List Start → φ → φ
  | [], fs => fs
  | start :: more, fs => runAll more (start.run false fs).2

/-- None of several agents uncovers a file. -/
def UncoverNothing : List Start → φ → Prop
  | [], _ => True
  | start :: more, fs => ¬ start.Uncovers fs ∧ UncoverNothing more (start.run false fs).2

private theorem contentAt_runAll (starts : List Start) {fs : φ} (h : UncoverNothing starts fs)
    {p : π} {text : String} (hcontent : contentAt fs p = some text) :
    contentAt (runAll starts fs) p = some text := by
  induction starts generalizing fs with
  | nil => exact hcontent
  | cons start more ih => exact ih h.2 (contentAt_run h.1 hcontent)

@[simp] theorem runAll_append (earlier more : List Start) (fs : φ) :
    runAll (earlier ++ more) fs = runAll more (runAll earlier fs) := by
  induction earlier generalizing fs with
  | nil => rfl
  | cons start earlier ih => exact ih (start.run false fs).2

omit [LawfulFileSystem φ] in
private theorem uncoverNothing_append {earlier more : List Start} {fs : φ}
    (h : UncoverNothing (earlier ++ more) fs) : UncoverNothing more (runAll earlier fs) := by
  induction earlier generalizing fs with
  | nil => exact h
  | cons start earlier ih => exact ih h.2

end Store

/-! ## In a tree -/

section Tree

open FileTree

variable {start : Start} {tree : FileTree}

@[simp] theorem workingPlace_run (start : Start) (force : Bool) (tree : FileTree) :
    (start.run force tree).2.workingPlace = tree.workingPlace := by
  have hasked : (FileStore.isPresent (m := StateM FileTree) start.path tree).2 = tree := by
    rw [FileStore.isPresent, bind_apply]
    cases (FileStore.read (m := StateM FileTree) start.path tree).1 with
    | ok text => rfl
    | error fault => cases fault <;> rfl
  cases hguard : !force && (FileStore.isPresent (m := StateM FileTree) start.path tree).1 with
  | true =>
    rw [run_of_guard hguard, hasked]
  | false =>
    have hwritten := workingPlace_writeFile start.path start.text tree
    rw [run_of_written hguard rfl, hasked]
    exact hwritten

private theorem closed_run (h : tree.Closed) (start : Start) (force : Bool) :
    (start.run force tree).2.Closed := by
  have hworking := start.workingPlace_run force tree
  rcases start.run_cases force tree with
    ⟨_, _, hsame⟩ | ⟨_, ⟨_, _, hextends⟩ | ⟨made, _, hextends, hstores⟩⟩
  · exact h.extends hworking hsame
  · exact h.extends hworking hextends
  · exact h.stores hworking hextends hstores

private theorem not_uncovers_of_downward (h : tree.Closed) (hdown : ".." ∉ Path.steps start.path) :
    ¬ start.Uncovers tree := by
  rintro ⟨hlocate, p, hp, hcontent⟩
  obtain ⟨hleads, rfl⟩ := locate?_eq_some_iff.mp hp
  have hworking := start.workingPlace_run false tree
  have hstart : (start.run false tree).2.start start.path = tree.start start.path := by
    rw [FileTree.start, hworking, ← FileTree.start]
  have hplace : (start.run false tree).2.place start.path = tree.place start.path := by
    rw [FileTree.place, hstart, ← FileTree.place]
  obtain ⟨hne, hpassed⟩ := ((start.run false tree).2.leads_iff).mp hleads
  have hfile := start.entryAt_run_ne_directory false tree hcontent
  rw [hplace] at hfile hcontent
  rw [hstart] at hpassed
  obtain ⟨text, hentry⟩ := contentAt_ne_none_iff.mp hcontent
  have hreached : tree.Leads start.path :=
    h.leads hdown hne (hentry.trans_ne (Option.some_ne_none _)) fun hmem => hfile (hpassed _ hmem)
  rw [locate?_eq_some_iff.mpr ⟨hreached, rfl⟩] at hlocate
  cases hlocate

private theorem uncoverNothing_of_downward (starts : List Start) (h : tree.Closed)
    (hdown : ∀ start ∈ starts, ".." ∉ Path.steps start.path) : UncoverNothing starts tree := by
  induction starts generalizing tree with
  | nil => trivial
  | cons start more ih =>
    obtain ⟨hfirst, hrest⟩ := List.forall_mem_cons.mp hdown
    exact ⟨not_uncovers_of_downward h hfirst, ih (closed_run h start false) hrest⟩

end Tree

variable {φ π : Type} [FileStore (StateM φ)] [FileSystem φ π] [LawfulFileSystem φ]

/-- As long as nothing is uncovered, no file that is there at some time changes ever after; in a
closed tree nothing is uncovered by paths that never go up. An agent is not started where something
is, and else its file is added or nothing is written. Even where files may be overwritten, at most
the one that the path leads to changes. -/
theorem runAll_destroys_nothing :
    (∀ (earlier more : List Start) (fs : φ), UncoverNothing (earlier ++ more) fs →
      ∀ p text, contentAt (runAll earlier fs) p = some text →
        contentAt (runAll (earlier ++ more) fs) p = some text) ∧
    (∀ (starts : List Start) (tree : FileTree), tree.Closed →
      (∀ start ∈ starts, ".." ∉ Path.steps start.path) → UncoverNothing starts tree) ∧
    (∀ (start : Start) (fs : φ), start.IsPresent fs →
      (start.run false fs).1 = .failed start.refusal ∧ Extends [] fs (start.run false fs).2) ∧
    (∀ (start : Start) (fs : φ), ¬ start.Uncovers fs → ¬ start.IsPresent fs →
      (∃ reason, (start.run false fs).1 = .failed (.inputOutput reason) ∧
        Extends (pathsAbove start.path) fs (start.run false fs).2) ∨
      ((start.run false fs).1 = ⟨[.created start.path], .ok true⟩ ∧
        start.Adds fs (start.run false fs).2)) ∧
    (∀ (start : Start) (force : Bool) (fs : φ) (p : π),
      contentAt (start.run force fs).2 p ≠ contentAt fs p →
        locate? (start.run force fs).2 start.path = some p) := by
  refine ⟨fun earlier more fs huncover p text hcontent => ?_,
    fun starts tree hclosed hdown => uncoverNothing_of_downward starts hclosed hdown,
    fun start fs => run_of_isPresent, fun start fs => run_of_not_isPresent,
    fun start force fs p => start.leads_of_changed force fs⟩
  rw [runAll_append]
  exact contentAt_runAll more (uncoverNothing_append huncover) hcontent

def lone : FileTree where
  entries := [(["help-desk.yaml"], .file "name: Mine\n")]
  workingPlace := []

private theorem lone_closed : lone.Closed where
  above name place h := by
    cases place with
    | nil => rfl
    | cons above place =>
      refine absurd ?_ h
      simp [lone, FileTree.entryAt, FileTree.lookup]
  start := rfl

/-- An agent is started in a new directory, and again under another name of the same path. -/
def twice : List Start :=
  [⟨some "help-desk", "commercial", "specs/new"⟩, ⟨some "help-desk", "gcc", "./specs//new/"⟩]

/-- The second start is refused, and what the first one wrote stays, as does the file that was there
at first. -/
theorem twice_destroys_nothing :
    UncoverNothing twice lone ∧
    contentAt (runAll twice lone) ["help-desk.yaml"] = some "name: Mine\n" ∧
    contentAt (runAll (twice.take 1) lone) ["help-desk.yaml", "new", "specs"] ≠ none ∧
    ∀ text, contentAt (runAll (twice.take 1) lone) ["help-desk.yaml", "new", "specs"] = some text →
      contentAt (runAll twice lone) ["help-desk.yaml", "new", "specs"] = some text := by
  have hmain := runAll_destroys_nothing (φ := FileTree)
  have huncover := hmain.2.1 twice lone lone_closed (by decide)
  exact ⟨huncover, hmain.1 [] twice lone huncover _ _ rfl, by decide +kernel,
    hmain.1 (twice.take 1) (twice.drop 1) lone huncover _⟩

/-- The directories that are made for the path uncover a file, and it is written over. -/
theorem uncovered_file_destroyed :
    contentAt lone ["help-desk.yaml"] = some "name: Mine\n" ∧
    (run ⟨some "help-desk", "commercial", "specs/.."⟩ false lone).1.status = 0 ∧
    contentAt (run ⟨some "help-desk", "commercial", "specs/.."⟩ false lone).2 ["help-desk.yaml"] ≠
      some "name: Mine\n" := by
  refine ⟨rfl, ?_, ?_⟩ <;> decide +kernel

end Start
end Botwright.Command
