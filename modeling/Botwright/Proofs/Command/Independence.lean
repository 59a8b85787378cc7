import Botwright.Identifier.Random
import Botwright.Proofs.Command.Generation
import Botwright.Proofs.Template.Text

/-!
# Specifications do not disturb each other

A command goes through its specifications one after another over the same files. Whether a template
can be written is the same before and after the others, since all destinations stand in the same
directories. So every specification fares as it does alone, unless the template of an earlier one
is put over it or over its destination, or makes the way to it.
-/

namespace Botwright.Command

open FileTree

/-! ## How far a command has come -/

/-- A command has not begun to write, could not make its directories, or made them and then wrote
files. -/
inductive Stage (output : String) (tree : FileTree) (written : List Place) : FileTree → Prop
  | untouched : Stage output tree written tree
  | blocked {reason : Failure} {later : FileTree}
      (h : prepare output tree = (.error reason, later)) :
      Stage output tree written later
  | made {start later : FileTree} (h : prepare output tree = (.ok (), start))
      (hwrites : Writes written start later) : Stage output tree written later

section Stage

variable {output : String} {tree later : FileTree} {written : List Place}

theorem Stage.keeps (h : Stage output tree written later) : Keeps written tree later := by
  have hprepare := keeps_prepare output tree
  cases h with
  | untouched => exact .refl written tree
  | blocked h =>
    rw [h] at hprepare
    exact hprepare.mono (List.nil_subset written)
  | made h hwrites =>
    rw [h] at hprepare
    exact hprepare.trans hwrites.toKeeps

private theorem Stage.prepare_cases (h : Stage output tree written later) :
    (∃ reason reason' start, prepare output tree = (.error reason, start) ∧
      prepare output later = (.error reason', start)) ∨
    ∃ start mid, prepare output tree = (.ok (), start) ∧ prepare output later = (.ok (), mid) ∧
      Writes written start mid := by
  cases h with
  | untouched =>
    cases hmade : prepare output tree with
    | mk result start =>
      cases result with
      | error reason => exact Or.inl ⟨reason, reason, start, rfl, rfl⟩
      | ok _ => exact Or.inr ⟨start, start, rfl, rfl, .refl written start⟩
  | blocked h =>
    obtain ⟨reason', hagain⟩ := makeAbove_again h
    exact Or.inl ⟨_, reason', later, h, hagain⟩
  | made h hwrites => exact Or.inr ⟨_, later, h, makeAbove_kept h hwrites.toKeeps, hwrites⟩

theorem Stage.canWrite_iff (h : Stage output tree written later) (spec : String) :
    CanWrite output later spec ↔ CanWrite output tree spec := by
  rcases h.prepare_cases with ⟨_, _, _, h₁, h₂⟩ | ⟨start, mid, h₁, h₂, hwrites⟩
  · exact iff_of_false (not_canWrite h₂) (not_canWrite h₁)
  · rw [Command.canWrite_iff h₁, Command.canWrite_iff h₂, hwrites.writable_iff]

private theorem Stage.after_prepare (h : Stage output tree written later) :
    Stage output tree written (prepare output later).2 := by
  rcases h.prepare_cases with ⟨_, _, start, h₁, h₂⟩ | ⟨start, mid, h₁, h₂, hwrites⟩
  · rw [h₂]
    exact .blocked h₁
  · rw [h₂]
    exact .made h₁ hwrites

private theorem Stage.after_write (h : Stage output tree written later) {mid : FileTree}
    {target : String} (hmade : prepare output later = (.ok (), mid))
    (hwritable : mid.Writable target) (text : String) :
    Stage output tree (written ++ [tree.place target])
      (mid.put (mid.place target) (.file text)) := by
  rcases h.prepare_cases with ⟨_, _, _, _, h₂⟩ | ⟨start, mid', h₁, h₂, hwrites⟩
  · rw [h₂] at hmade
    cases hmade
  · rw [h₂] at hmade
    cases hmade
    have hplace : mid.place target = tree.place target := by
      rw [hwrites.place_eq]
      have hprepare := keeps_prepare output tree
      rw [h₁] at hprepare
      exact hprepare.place_eq target
    refine .made h₁ ?_
    rw [← hplace]
    exact hwrites.trans (hwritable.writes text)

end Stage

/-! ## One specification -/

section One

variable {σ τ : Type} [IdSource σ] [IdSource τ] {options : Options} {output : String} {source : σ}
  {tree later : FileTree} {spec : String} {written : List Place}

/-- Making the directories of a command does not make a specification readable. -/
def Unopened (output : String) (tree : FileTree) (spec : String) : Prop :=
  ∀ text, (prepare output tree).2.read spec = .ok text → tree.read spec = .ok text

theorem Stage.read_ok_iff (h : Stage output tree written later)
    (hunread : tree.place spec ∉ written) (hopened : later = tree ∨ Unopened output tree spec)
    {text : String} : later.read spec = .ok text ↔ tree.read spec = .ok text := by
  refine ⟨fun hread => ?_, fun hread => h.keeps.read_ok hread hunread⟩
  rcases hopened with rfl | hopened
  · exact hread
  · have hprepare := keeps_prepare output tree
    cases h with
    | untouched => exact hread
    | blocked h =>
      apply hopened
      rwa [h]
    | made h hwrites =>
      rw [h] at hprepare
      apply hopened
      rw [h]
      rw [← hprepare.place_eq] at hunread
      exact (hwrites.read_ok_iff hunread).mp hread

private theorem Stage.drafted_iff (h : Stage output tree written later)
    (hunread : tree.place spec ∉ written) (hopened : later = tree ∨ Unopened output tree spec)
    {c : Compilation} :
    Drafted options source later spec c ↔ Drafted options source tree spec c := by
  simp only [Drafted, h.read_ok_iff hunread hopened]

/-- What a report says of a specification: it fares as it does on its own, and if it passes then
its template is at its destination. -/
structure Handled (options : Options) (output : String) (tree final : FileTree) (source : σ)
    (spec : String) (report : Report) : Prop where
  passes : report.ok = true ↔ Passes options output tree spec
  written : report.ok = true → ∃ c, Drafted options source tree spec c ∧
    .passed spec (some (destination spec output)) ∈ report.lines ∧
    final.read (destination spec output) = .ok (Yaml.print c.document.toJson)

private theorem Handled.of_failed {final : FileTree} {report : Report}
    (hnot : ¬ Passes options output tree spec) (hfailed : report.ok = false) :
    Handled options output tree final source spec report := by
  refine ⟨iff_of_false ?_ hnot, fun hok => ?_⟩
  · rw [hfailed]
    exact Bool.false_ne_true
  · rw [hfailed] at hok
    cases hok

theorem Handled.kept {final : FileTree} {added : List Place} {report : Report}
    (h : Handled options output tree later source spec report) (hkeeps : Keeps added later final)
    (hplace : Passes options output tree spec → later.place (destination spec output) ∉ added) :
    Handled options output tree final source spec report := by
  refine ⟨h.passes, fun hok => ?_⟩
  obtain ⟨c, hdrafted, hline, hread⟩ := h.written hok
  exact ⟨c, hdrafted, hline, hkeeps.read_ok hread (hplace (h.passes.mp hok))⟩

theorem Stage.generateOne (options : Options) (h : Stage output tree written later)
    (hunread : tree.place spec ∉ written) (hopened : later = tree ∨ Unopened output tree spec)
    (source : σ) :
    ∃ report next added,
      Command.generateOne (m := StateM FileTree) options output source spec later =
        (report, next) ∧
      Stage output tree (written ++ added) next ∧ Keeps added later next ∧
      (∀ p ∈ added, Passes options output tree spec ∧ p = tree.place (destination spec output)) ∧
      Handled options output tree next source spec report := by
  -- whether it passes was settled by the first tree, however far the command has come
  have hpasses : ((∃ c, Drafted options source later spec c) ∧ CanWrite output later spec) ↔
      Passes options output tree spec := by
    rw [passes_iff source, h.canWrite_iff]
    simp only [h.drafted_iff hunread hopened]
  rcases generateOne_cases options output source spec later with
    ⟨c, report, start, hdrafted, hmade, hwritable, hrun, hok, hline⟩ |
    ⟨report, hnot, hfailed, hrun⟩
  · have hpassed := hpasses.mp ⟨⟨c, hdrafted⟩, start, hmade, hwritable⟩
    have hstart := keeps_prepare output later
    rw [hmade] at hstart
    have hplace : start.place (destination spec output) =
        tree.place (destination spec output) := by
      rw [hstart.place_eq, h.keeps.place_eq]
    have hwrites := hwritable.writes (Yaml.print c.document.toJson)
    refine ⟨report, _, [tree.place (destination spec output)], hrun,
      h.after_write hmade hwritable _, ?_, ?_, ?_, ?_⟩
    · rw [← hplace]
      exact hstart.trans hwrites.toKeeps
    · intro p hp
      exact ⟨hpassed, List.mem_singleton.mp hp⟩
    · exact iff_of_true hok hpassed
    · intro _
      exact ⟨c, (h.drafted_iff hunread hopened).mp hdrafted, hline, hwritable.read_put _⟩
  · have hfail (next : FileTree) : Handled options output tree next source spec report :=
      .of_failed (mt hpasses.mpr hnot) hfailed
    rcases hrun with hrun | hrun
    · exact ⟨report, _, [], hrun, (List.append_nil written).symm ▸ h, .refl [] later,
        List.forall_mem_nil _, hfail _⟩
    · exact ⟨report, _, [], hrun, (List.append_nil written).symm ▸ h.after_prepare,
        keeps_prepare output later, List.forall_mem_nil _, hfail _⟩

end One

/-! ## All specifications -/

section All

variable {σ τ : Type} [IdSource σ] [IdSource τ] {options : Options} {output : String}
  {tree later : FileTree} {written : List Place}

/-- No specification is written over before it is read, or made readable by the directories of the
command, and none that passes has the destination of another that does. -/
structure Separate (options : Options) (output : String) (tree : FileTree)
    (specs : List String) : Prop where
  unread : specs.Pairwise fun earlier later => Passes options output tree earlier →
    tree.place (destination earlier output) ≠ tree.place later
  unshared : specs.Pairwise fun earlier later => Passes options output tree earlier →
    Passes options output tree later → destination earlier output ≠ destination later output
  unopened : specs.Pairwise fun _ later => Unopened output tree later

theorem Stage.generateAll (h : Stage output tree written later) (sources : Nat → σ)
    (index : Nat) {specs : List String} (hsep : Separate options output tree specs)
    (hunread : ∀ spec ∈ specs, tree.place spec ∉ written)
    (hopened : ∀ spec ∈ specs, later = tree ∨ Unopened output tree spec) :
    ∃ reports final added,
      Command.generateAll (m := StateM FileTree) options output sources index specs later =
        (reports, final) ∧
      Keeps added later final ∧
      (∀ p ∈ added, ∃ spec ∈ specs, Passes options output tree spec ∧
        p = tree.place (destination spec output)) ∧
      reports.length = specs.length ∧
      ∀ (i : Nat) spec report, specs[i]? = some spec → reports[i]? = some report →
        Handled options output tree final (sources (index + i)) spec report := by
  induction specs generalizing later written index with
  | nil =>
    refine ⟨[], later, [], rfl, .refl [] later, List.forall_mem_nil _, rfl, ?_⟩
    rintro i spec report ⟨⟩
  | cons spec specs ih =>
    obtain ⟨hunread₁, hunread'⟩ := List.pairwise_cons.mp hsep.unread
    obtain ⟨hunshared₁, hunshared'⟩ := List.pairwise_cons.mp hsep.unshared
    obtain ⟨hunopened₁, hunopened'⟩ := List.pairwise_cons.mp hsep.unopened
    obtain ⟨hplace, hplaces⟩ := List.forall_mem_cons.mp hunread
    obtain ⟨report, next, added, hone, hstage, hkeeps, hadded, hhandled⟩ :=
      h.generateOne options hplace (hopened spec List.mem_cons_self) (sources index)
    have hnext : ∀ other ∈ specs, tree.place other ∉ written ++ added := by
      intro other hother hmem
      rcases List.mem_append.mp hmem with hmem | hmem
      · exact hplaces other hother hmem
      · obtain ⟨hpasses, heq⟩ := hadded _ hmem
        exact hunread₁ other hother hpasses heq.symm
    obtain ⟨reports, final, more, hall, hkeeps', hmore, hlength, hrest⟩ :=
      ih hstage (index + 1) ⟨hunread', hunshared', hunopened'⟩ hnext
        fun other hother => Or.inr (hunopened₁ other hother)
    refine ⟨report :: reports, final, added ++ more, ?_, hkeeps.trans hkeeps', ?_,
      congrArg (· + 1) hlength, ?_⟩
    · rw [Command.generateAll, bind_apply, hone]
      dsimp only
      rw [bind_apply, hall]
      rfl
    · intro p hp
      rcases List.mem_append.mp hp with hp | hp
      · exact ⟨spec, List.mem_cons_self, hadded p hp⟩
      · obtain ⟨other, hother, hpasses⟩ := hmore p hp
        exact ⟨other, List.mem_cons_of_mem spec hother, hpasses⟩
    · intro i other otherReport hspec hreport
      cases i with
      | zero =>
        cases hspec
        cases hreport
        -- what is still to come writes to no destination of one that passed
        refine hhandled.kept hkeeps' fun hpasses hmem => ?_
        obtain ⟨other, hother, hpasses', heq⟩ := hmore _ hmem
        rw [hstage.keeps.place_eq] at heq
        exact hunshared₁ other hother hpasses hpasses' (destination_eq_of_place heq)
      | succ i =>
        rw [← Nat.add_assoc, Nat.add_right_comm]
        exact hrest i other otherReport hspec hreport

private theorem generate_alone {config publisher environmentId : Option String} {loaded : Options}
    {events : List LogEvent}
    (hload : (loadOptions (m := StateM FileTree) config tree).1 = .ok (loaded, events))
    (alone : Nat → τ) (spec output : String) (ok : Bool)
    (h : ok = true ↔ Passes (override publisher environmentId loaded) output tree spec) :
    (generate (m := StateM FileTree) alone [spec] output config publisher environmentId
      tree).1.outcome = .ok ok := by
  have hone : (generateAll (m := StateM FileTree) (override publisher environmentId loaded) output
      alone 0 [spec] tree).1 =
        [(generateOne (m := StateM FileTree) (override publisher environmentId loaded) output
          (alone 0) spec tree).1] := rfl
  have hok : (generateOne (m := StateM FileTree) (override publisher environmentId loaded) output
      (alone 0) spec tree).1.ok = ok := by
    rw [Bool.eq_iff_iff, h, passes_iff (alone 0), ok_iff]
  simp [generate_of_loaded hload, hone, conclude, hok]

/-- Specifications that keep apart fare together as they do alone, whatever identifiers are drawn:
each is reported once and passes if it does on its own, and in the end its destination holds the
template of what it held at first. -/
theorem generate_independent (sources : Nat → σ) (alone : Nat → τ) (specs : List String)
    (output : String) (config publisher environmentId : Option String) (tree : FileTree)
    (loaded : Options) (events : List LogEvent)
    (hload : (loadOptions (m := StateM FileTree) config tree).1 = .ok (loaded, events))
    (hsep : Separate (override publisher environmentId loaded) output tree specs) :
    ∃ reports final,
      generate (m := StateM FileTree) sources specs output config publisher environmentId tree =
        (conclude (events.map .event ++ heading "Generating templates...") reports, final) ∧
      reports.length = specs.length ∧
      ∀ (i : Nat) spec report, specs[i]? = some spec → reports[i]? = some report →
        (generate (m := StateM FileTree) alone [spec] output config publisher environmentId
          tree).1.outcome = .ok report.ok ∧
        (report.ok = true → ∃ text c, tree.read spec = .ok text ∧
          (draft (override publisher environmentId loaded) (sources i) spec (.ok text)).result =
            .ok c ∧
          .passed spec (some (destination spec output)) ∈ report.lines ∧
          final.read (destination spec output) = .ok (Yaml.print c.document.toJson)) := by
  have hstart : Stage output tree [] tree := .untouched
  obtain ⟨reports, final, _, hall, _, _, hlength, hhandled⟩ :=
    hstart.generateAll sources 0 hsep (fun _ _ => List.not_mem_nil) (fun _ _ => Or.inl rfl)
  refine ⟨reports, final, ?_, hlength, ?_⟩
  · rw [generate_of_loaded hload, hall]
  · intro i spec report hspec hreport
    have h := hhandled i spec report hspec hreport
    rw [Nat.zero_add] at h
    refine ⟨generate_alone hload alone spec output report.ok h.passes, fun hok => ?_⟩
    obtain ⟨c, ⟨text, hread, hdraft⟩, hline, hwritten⟩ := h.written hok
    exact ⟨text, c, hread, hdraft, hline, hwritten⟩

end All

/-- Two specifications and a directory for templates that is still missing. -/
def shelf : FileTree where
  entries := [(["specs"], .directory), (["alpha.yaml", "specs"], .file "name: Alpha\n"),
    (["beta.yaml", "specs"], .file "name: Beta\n")]
  workingPlace := []

def shelfSpecs : List String := ["specs/alpha.yaml", "specs/gone.yaml", "./specs/beta.yaml"]

private theorem shelf_separate (options : Options) :
    Separate options "templates/" shelf shelfSpecs where
  unread := by
    have hplaces : shelfSpecs.Pairwise fun earlier later =>
        shelf.place (destination earlier "templates/") ≠ shelf.place later := by decide
    refine hplaces.imp ?_
    intro earlier later h _
    exact h
  unshared := by
    have hdestinations : shelfSpecs.Pairwise fun earlier later =>
        destination earlier "templates/" ≠ destination later "templates/" := by decide
    refine hdestinations.imp ?_
    intro earlier later h _ _
    exact h
  unopened := by
    have hread : ∀ spec ∈ shelfSpecs, ((prepare "templates/" shelf).2.read spec).toOption =
        (shelf.read spec).toOption := by decide
    refine List.pairwise_of_forall_mem_list fun _ _ spec hspec text h => ?_
    have hsame := hread spec hspec
    rw [h] at hsame
    cases hread' : shelf.read spec with
    | error fault =>
      rw [hread'] at hsame
      cases hsame
    | ok text' =>
      rw [hread'] at hsame
      exact congrArg Except.ok (Option.some.inj hsame).symm

/-- Three specifications, one of which is missing, fare together as they do one by one. -/
theorem shelf_independent :
    ∃ reports final,
      generate (m := StateM FileTree) (fun _ => SequentialIds.fresh) shelfSpecs "templates/" none
        none none shelf = (conclude (heading "Generating templates...") reports, final) ∧
      reports.length = 3 ∧
      ∀ (i : Nat) spec report, shelfSpecs[i]? = some spec → reports[i]? = some report →
        (generate (m := StateM FileTree) (fun _ => RandomIds.ofPool []) [spec] "templates/" none
          none none shelf).1.outcome = .ok report.ok := by
  obtain ⟨reports, final, hrun, hlength, hreports⟩ :=
    generate_independent (fun _ => SequentialIds.fresh) (fun _ => RandomIds.ofPool []) shelfSpecs
      "templates/" none none none shelf {} [] rfl (shelf_separate _)
  exact ⟨reports, final, hrun, hlength, fun i spec report hspec hreport =>
    (hreports i spec report hspec hreport).1⟩

def twins : FileTree where
  entries := [(["a"], .directory), (["x.yaml", "a"], .file "name: Alpha\n"), (["b"], .directory),
    (["x.yaml", "b"], .file "name: Beta\n")]
  workingPlace := []

/-- Both of the twins are reported as passed, but at the destination that is reported for the first
one there is in the end no template of it, whatever its identifiers. -/
theorem twins_lose_template :
    (generateAll (m := StateM FileTree) {} "out/" (fun _ => SequentialIds.fresh) 0
      ["a/x.yaml", "b/x.yaml"] twins).1.map (·.ok) = [true, true] ∧
    ∀ (τ : Type) [IdSource τ] (t : τ) (c : Compilation), Drafted {} t twins "a/x.yaml" c →
      (generateAll (m := StateM FileTree) {} "out/" (fun _ => SequentialIds.fresh) 0
        ["a/x.yaml", "b/x.yaml"] twins).2.read (destination "a/x.yaml" "out/") ≠
          .ok (Yaml.print c.document.toJson) := by
  have hok : (generateAll (m := StateM FileTree) {} "out/" (fun _ => SequentialIds.fresh) 0
      ["a/x.yaml", "b/x.yaml"] twins).1.map (·.ok) = [true, true] := by decide +kernel
  refine ⟨hok, fun τ _ t c hc hread => ?_⟩
  have halpha : twins.read "a/x.yaml" = .ok "name: Alpha\n" := rfl
  have hbeta : twins.read "b/x.yaml" = .ok "name: Beta\n" := rfl
  have hstart : Stage "out/" twins [] twins := .untouched
  have hnothing : twins.place "a/x.yaml" ∉ ([] : List Place) := List.not_mem_nil
  obtain ⟨first, mid, added, hone, hstage, _, hadded, _⟩ :=
    hstart.generateOne {} hnothing (Or.inl rfl) SequentialIds.fresh
  have hunread : twins.place "b/x.yaml" ∉ [] ++ added := fun hmem =>
    absurd (hadded _ hmem).2 (by decide)
  have hopened : Unopened "out/" twins "b/x.yaml" := by
    intro text hread
    rw [(keeps_prepare "out/" twins).read_ok hbeta List.not_mem_nil] at hread
    exact hbeta.trans hread
  obtain ⟨second, final, _, htwo, _, _, _, hhandled⟩ :=
    hstage.generateOne {} hunread (Or.inr hopened) SequentialIds.fresh
  have hrun : generateAll (m := StateM FileTree) {} "out/" (fun _ => SequentialIds.fresh) 0
      ["a/x.yaml", "b/x.yaml"] twins = ([first, second], final) := by
    rw [generateAll, bind_apply, hone]
    dsimp only
    rw [bind_apply, generateAll, bind_apply, htwo]
    rfl
  rw [hrun] at hok hread
  obtain ⟨c', hc', _, hread'⟩ := hhandled.written (List.cons.inj (List.cons.inj hok).2).1
  have hshared : destination "a/x.yaml" "out/" = destination "b/x.yaml" "out/" := by decide
  rw [hshared, hread'] at hread
  obtain ⟨hkind, henvironment, hcustomizable, hname⟩ := hc.document halpha
  obtain ⟨hkind', henvironment', hcustomizable', hname'⟩ := hc'.document hbeta
  obtain ⟨rest, rest', htext⟩ := BotDocument.displayName_of_print_eq (hkind'.trans hkind.symm)
    (henvironment'.trans henvironment.symm) (hcustomizable'.trans hcustomizable.symm)
    (Except.ok.inj hread)
  have hparse : (Yaml.parse? "name: Alpha\n").bind
      (fun v => (Agent.ofJson v).toOption.bind (·.name)) = some "Alpha" := by decide +kernel
  have hparse' : (Yaml.parse? "name: Beta\n").bind
      (fun v => (Agent.ofJson v).toOption.bind (·.name)) = some "Beta" := by decide +kernel
  have hfirst : Yaml.afterKey 2 (.string "Alpha") = [' ', 'A', 'l', 'p', 'h', 'a', '\n'] := by
    decide +kernel
  have hsecond : Yaml.afterKey 2 (.string "Beta") = [' ', 'B', 'e', 't', 'a', '\n'] := by
    decide +kernel
  rw [← Option.some.inj (hparse.symm.trans hname), ← Option.some.inj (hparse'.symm.trans hname'),
    hfirst, hsecond] at htext
  cases htext

end Botwright.Command
