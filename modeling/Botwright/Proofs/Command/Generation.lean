import Botwright.Command.Generate
import Botwright.Proofs.Command.Writing
import Botwright.Proofs.Compile.Acceptance

/-!
# Generating one template

A specification passes if it is drafted, that is read, found valid and compiled, and if its
destination can be written. The destinations of a command all stand in the same directories, and
different ones are different places.
-/

namespace Botwright.Command

open FileTree

/-! ## Destinations -/

section Destinations

variable {output : String}

private theorem destination_cases (output : String) :
    (∀ spec, destination spec output = output) ∨
      Path.isDirectoryPath output = true ∧ ∀ spec, ∃ name : String,
        destination spec output = output ++ name ∧ '/' ∉ name.toList ∧ 2 < name.toList.length := by
  cases houtput : Path.isDirectoryPath output with
  | false =>
    left
    intro spec
    rw [destination, houtput, if_neg Bool.false_ne_true]
  | true =>
    refine Or.inr ⟨rfl, fun spec => ?_⟩
    have hstem : '/' ∉ ((Path.stem? spec).getD "agent").toList := by
      cases h : Path.stem? spec with
      | none => decide
      | some stem => exact Path.notMem_of_stem? h
    generalize hname : (Path.stem? spec).getD "agent" ++ "-template.yaml" = name
    have hchars : name.toList = ((Path.stem? spec).getD "agent").toList ++
        "-template.yaml".toList := by rw [← hname, String.toList_append]
    have hslash : '/' ∉ name.toList := by
      rw [hchars, List.mem_append, not_or]
      exact ⟨hstem, by decide⟩
    have hlength : 2 < name.toList.length := by
      have hsuffix : "-template.yaml".toList.length = 14 := by decide
      rw [hchars, List.length_append, hsuffix]
      omega
    have hrelative : Path.isAbsolute name = false := by
      rw [Path.isAbsolute, beq_eq_false_iff_ne]
      exact fun h => hslash (List.mem_of_head? h)
    refine ⟨name, ?_, hslash, hlength⟩
    simp [destination, houtput, hname, Path.join, hrelative]

private theorem parent?_destination (output spec spec' : String) :
    Path.parent? (destination spec output) = Path.parent? (destination spec' output) := by
  rcases destination_cases output with h | ⟨houtput, h⟩
  · rw [h, h]
  · obtain ⟨above, habove⟩ := Path.exists_parent?_append_name houtput
    have hparent (spec : String) : Path.parent? (destination spec output) = some above := by
      obtain ⟨name, hname, hslash, hlength⟩ := h spec
      rw [hname]
      exact habove name hslash (Path.not_isIdle_of_length hlength)
    rw [hparent, hparent]

private theorem follow_of_length {here : Place} {name : String} (h : 2 < name.toList.length) :
    follow here name = name :: here := by
  have hne {other : String} (hother : other.toList.length ≤ 2) : name ≠ other := by
    rintro rfl
    omega
  rw [follow, if_neg (hne (by decide)), if_neg (hne (by decide))]

theorem destination_eq_of_place {tree : FileTree} {spec spec' : String}
    (h : tree.place (destination spec output) = tree.place (destination spec' output)) :
    destination spec output = destination spec' output := by
  rcases destination_cases output with heq | ⟨houtput, hnames⟩
  · rw [heq, heq]
  · obtain ⟨before, hsteps⟩ := Path.exists_steps_append_name houtput
    have hplace {name : String} (hslash : '/' ∉ name.toList) (hlength : 2 < name.toList.length) :
        tree.place (output ++ name) = name :: before.foldl follow (tree.start output) := by
      have hne : name ≠ "" := by
        rintro rfl
        exact absurd hlength (by decide)
      rw [place, hsteps name hslash hne, start,
        Path.isAbsolute_append (Path.ne_empty_of_isDirectoryPath houtput), ← start,
        List.foldl_append, List.foldl_cons, List.foldl_nil, follow_of_length hlength]
    obtain ⟨name, hname, hslash, hlength⟩ := hnames spec
    obtain ⟨name', hname', hslash', hlength'⟩ := hnames spec'
    rw [hname, hname', hplace hslash hlength, hplace hslash' hlength'] at h
    rw [hname, hname', (List.cons.inj h).1]

end Destinations

/-! ## What a destination takes -/

/-- Makes the directories above the destinations of a command. -/
def prepare (output : String) (tree : FileTree) : Except Failure Unit × FileTree :=
  makeAbove (m := StateM FileTree) (destination "" output) tree

private theorem makeAbove_destination (output spec : String) (tree : FileTree) :
    makeAbove (m := StateM FileTree) (destination spec output) tree = prepare output tree := by
  rw [prepare, makeAbove_congr (parent?_destination output spec "")]

theorem keeps_prepare (output : String) (tree : FileTree) :
    Keeps [] tree (prepare output tree).2 := keeps_makeAbove tree (destination "" output)

/-- The destination of a specification can be written. -/
def CanWrite (output : String) (tree : FileTree) (spec : String) : Prop :=
  ∃ start, prepare output tree = (.ok (), start) ∧ start.Writable (destination spec output)

theorem canWrite_iff {output : String} {tree start : FileTree} {spec : String}
    (h : prepare output tree = (.ok (), start)) :
    CanWrite output tree spec ↔ start.Writable (destination spec output) := by
  constructor
  · rintro ⟨_, h', hwritable⟩
    rw [h] at h'
    cases h'
    exact hwritable
  · exact fun hwritable => ⟨start, h, hwritable⟩

theorem not_canWrite {output : String} {tree later : FileTree} {spec : String} {reason : Failure}
    (h : prepare output tree = (.error reason, later)) : ¬ CanWrite output tree spec := by
  rintro ⟨_, h', _⟩
  rw [h] at h'
  cases h'

/-! ## Drafts and reports -/

section One

variable {σ τ : Type} [IdSource σ] [IdSource τ] {options : Options} {output : String} {source : σ}
  {tree : FileTree} {spec : String}

/-- A specification is read and compiled. -/
def Drafted (options : Options) (source : σ) (tree : FileTree) (spec : String)
    (c : Compilation) : Prop :=
  ∃ text, tree.read spec = .ok text ∧ (draft options source spec (.ok text)).result = .ok c

/-- Of a specification on its own: it is compiled and its template written. -/
def Passes (options : Options) (output : String) (tree : FileTree) (spec : String) : Prop :=
  (generateOne (m := StateM FileTree) options output SequentialIds.fresh spec tree).1.ok = true

private theorem draft_result_iff {c : Compilation} :
    (draft options source spec (tree.read spec)).result = .ok c ↔
      Drafted options source tree spec c := by
  rw [Drafted]
  cases tree.read spec with
  | error fault =>
    refine iff_of_false ?_ ?_
    · rintro ⟨⟩
    · rintro ⟨_, ⟨⟩, _⟩
  | ok text => simp

theorem valueOf_eq_ok_iff {path : String} {content : Except FileFault String} {v : Json} :
    valueOf path content = .ok v ↔
      ∃ text, content = .ok text ∧ Yaml.parse? text = some v := by
  cases content with
  | error fault => simp [valueOf]
  | ok text =>
    rw [valueOf]
    simp only [Except.ok.injEq, exists_eq_left']
    cases Yaml.parse? text <;> simp

theorem draft_eq_ok_iff {content : Except FileFault String} {c : Compilation} :
    (draft options source spec content).result = .ok c ↔
      ∃ text v agent, content = .ok text ∧ Yaml.parse? text = some v ∧
        Schema.requireValid (Schema.validate Schema.AgentSpec.document v) = .ok () ∧
        Agent.ofJson v = .ok agent ∧ (agent.compile options source).result = .ok c := by
  constructor
  · intro h
    rw [draft] at h
    cases hvalue : valueOf spec content with
    | error reason =>
      rw [hvalue] at h
      cases h
    | ok v =>
      obtain ⟨text, htext, hparse⟩ := valueOf_eq_ok_iff.mp hvalue
      rw [hvalue] at h
      dsimp only [Draft.ofValue] at h
      cases hvalid : Schema.requireValid (Schema.validate Schema.AgentSpec.document v) with
      | error reason =>
        rw [hvalid] at h
        cases h
      | ok _ =>
        cases hagent : Agent.ofJson v with
        | error e =>
          rw [hvalid, hagent] at h
          cases h
        | ok agent =>
          rw [hvalid, hagent] at h
          exact ⟨text, v, agent, htext, hparse, hvalid, hagent, h⟩
  · rintro ⟨text, v, agent, htext, hparse, hvalid, hagent, h⟩
    rw [draft, valueOf_eq_ok_iff.mpr ⟨text, htext, hparse⟩]
    dsimp only [Draft.ofValue]
    rw [hvalid, hagent]
    exact h

private theorem exists_drafted (s : σ) (t : τ) (h : ∃ c, Drafted options s tree spec c) :
    ∃ c, Drafted options t tree spec c := by
  obtain ⟨c, text, hread, hdraft⟩ := h
  obtain ⟨text', v, agent, htext, hparse, hvalid, hagent, hcompile⟩ := draft_eq_ok_iff.mp hdraft
  obtain ⟨c', hcompile'⟩ := Agent.compile_of_acceptable t options agent
    (Agent.acceptable_of_compile hcompile)
  exact ⟨c', text, hread,
    draft_eq_ok_iff.mpr ⟨text', v, agent, htext, hparse, hvalid, hagent, hcompile'⟩⟩

/-- A specification whose template is written, or one that is not drafted or cannot be written. -/
theorem generateOne_cases (options : Options) (output : String) (source : σ) (spec : String)
    (tree : FileTree) :
    (∃ c report start, Drafted options source tree spec c ∧
      prepare output tree = (.ok (), start) ∧ start.Writable (destination spec output) ∧
      generateOne (m := StateM FileTree) options output source spec tree =
        (report, start.put (start.place (destination spec output))
          (.file (Yaml.print c.document.toJson))) ∧
      report.ok = true ∧ .passed spec (some (destination spec output)) ∈ report.lines) ∨
    ∃ report, ¬ ((∃ c, Drafted options source tree spec c) ∧ CanWrite output tree spec) ∧
      report.ok = false ∧
      (generateOne (m := StateM FileTree) options output source spec tree = (report, tree) ∨
        generateOne (m := StateM FileTree) options output source spec tree =
          (report, (prepare output tree).2)) := by
  have hread : FileStore.read (m := StateM FileTree) spec tree = (tree.read spec, tree) := rfl
  rw [generateOne, bind_apply, hread]
  dsimp only
  -- without a draft the tree stays, without a place to write only directories are made
  cases hdraft : (draft options source spec (tree.read spec)).result with
  | error reason =>
    refine Or.inr ⟨_, ?_, rfl, Or.inl rfl⟩
    rintro ⟨⟨c, hc⟩, _⟩
    rw [draft_result_iff.mpr hc] at hdraft
    cases hdraft
  | ok c =>
    have hdrafted := draft_result_iff.mp hdraft
    dsimp only
    rw [bind_apply]
    have habove := makeAbove_destination output spec tree
    cases hmade : prepare output tree with
    | mk result start =>
      rw [hmade] at habove
      cases result with
      | error reason =>
        rw [writeFile_of_error habove]
        exact Or.inr ⟨_, fun h => not_canWrite hmade h.2, rfl, Or.inr rfl⟩
      | ok _ =>
        rw [writeFile_of_ok habove]
        by_cases hwritable : start.Writable (destination spec output)
        · left
          rw [write_of_writable hwritable]
          refine ⟨c, _, start, hdrafted, rfl, hwritable, rfl, rfl, ?_⟩
          simp
        · right
          obtain ⟨fault, hfailed⟩ := write_of_not_writable hwritable
            (Yaml.print c.document.toJson)
          rw [hfailed]
          exact ⟨_, fun h => hwritable ((canWrite_iff hmade).mp h.2), rfl, Or.inr rfl⟩

theorem ok_iff (source : σ) :
    (generateOne (m := StateM FileTree) options output source spec tree).1.ok = true ↔
      (∃ c, Drafted options source tree spec c) ∧ CanWrite output tree spec := by
  rcases generateOne_cases options output source spec tree with
    ⟨c, report, start, hdrafted, hmade, hwritable, h, hok, _⟩ | ⟨report, hnot, hfailed, h⟩
  · rw [h]
    exact iff_of_true hok ⟨⟨c, hdrafted⟩, start, hmade, hwritable⟩
  · refine iff_of_false ?_ hnot
    rcases h with h | h <;>
    · rw [h, hfailed]
      exact Bool.false_ne_true

theorem passes_iff (source : σ) : Passes options output tree spec ↔
    (∃ c, Drafted options source tree spec c) ∧ CanWrite output tree spec := by
  rw [Passes, ok_iff]
  exact and_congr_left fun _ => ⟨exists_drafted _ _, exists_drafted _ _⟩

theorem Drafted.document {text : String} {c : Compilation}
    (h : Drafted options source tree spec c) (hread : tree.read spec = .ok text) :
    c.document.kind = BotDocument.definitionKind ∧
      c.document.environmentId = options.environmentId ∧
      c.document.entity.customizable = false ∧
      (Yaml.parse? text).bind (fun v => (Agent.ofJson v).toOption.bind (·.name)) =
        some c.document.entity.displayName := by
  obtain ⟨text', hread', hdraft⟩ := h
  rw [hread] at hread'
  cases hread'
  obtain ⟨_, v, agent, ⟨⟩, hparse, _, hagent, hcompile⟩ := draft_eq_ok_iff.mp hdraft
  obtain ⟨name, hname, hdocument, _⟩ := Agent.compile_document options agent source c hcompile
  rw [hdocument, Agent.assemble_eq, hparse, Option.bind_some, hagent]
  exact ⟨rfl, rfl, rfl, ((Agent.checkName_eq_ok options agent name).mp hname).1⟩

end One

/-! ## The command -/

section Loaded

variable {σ : Type} [IdSource σ] {tree : FileTree}

private theorem loadOptions_apply (config : Option String) (tree : FileTree) :
    (loadOptions (m := StateM FileTree) config tree).2 = tree := by
  cases config <;> rfl

theorem generate_of_loaded {config publisher environmentId : Option String} {loaded : Options}
    {events : List LogEvent}
    (hload : (loadOptions (m := StateM FileTree) config tree).1 = .ok (loaded, events))
    (sources : Nat → σ) (specs : List String) (output : String) :
    generate (m := StateM FileTree) sources specs output config publisher environmentId tree =
      (conclude (events.map .event ++ heading "Generating templates...")
        (generateAll (m := StateM FileTree) (override publisher environmentId loaded) output
          sources 0 specs tree).1,
        (generateAll (m := StateM FileTree) (override publisher environmentId loaded) output
          sources 0 specs tree).2) := by
  rw [generate, bind_apply, hload, loadOptions_apply]
  rfl

end Loaded
end Botwright.Command
