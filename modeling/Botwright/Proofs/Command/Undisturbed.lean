import Botwright.Command.Validate
import Botwright.Proofs.Command.Independence
import Botwright.Proofs.Command.Verdicts

/-!
# Failing specifications

A failing specification disturbs nothing: the others are handled as if it had not failed, and the
files are as they were. Checking specifications changes nothing at all, and generating templates
changes the destinations of specifications that pass. All this holds whatever operations of the
file system fail.
-/

namespace Botwright.Command

open FileSystem CommandLine

/-! ## One after another -/

section InTurn

variable {φ : Type}

/-- Specifications are handled in order, each once, on the files that those before it left. -/
inductive InTurn (handle : Nat → String → StateM φ Report) :
    Nat → List String → φ → List Report → φ → Prop
  | nil (index : Nat) (fs : φ) : InTurn handle index [] fs [] fs
  | cons {index : Nat} {spec : String} {specs : List String} {fs mid final : φ} {report : Report}
      {reports : List Report} (hone : handle index spec fs = (report, mid))
      (hrest : InTurn handle (index + 1) specs mid reports final) :
      InTurn handle index (spec :: specs) fs (report :: reports) final

private theorem inTurn_generateAll [FileStore (StateM φ)] {σ : Type} [IdSource σ]
    (options : Options) (output : String) (sources : Nat → σ) (index : Nat) (specs : List String)
    (fs : φ) :
    InTurn (fun index => generateOne options output (sources index)) index specs fs
      (generateAll (m := StateM φ) options output sources index specs fs).1
      (generateAll (m := StateM φ) options output sources index specs fs).2 := by
  induction specs generalizing index fs with
  | nil => exact .nil index fs
  | cons spec specs ih =>
    rw [generateAll, bind_apply]
    exact .cons rfl (ih (index + 1) _)

private theorem inTurn_mapM (handle : String → StateM φ Report) (index : Nat) (specs : List String)
    (fs : φ) :
    InTurn (fun _ => handle) index specs fs (specs.mapM handle fs).1 (specs.mapM handle fs).2 := by
  induction specs generalizing index fs with
  | nil => exact .nil index fs
  | cons spec specs ih =>
    rw [List.mapM_cons, bind_apply]
    exact .cons rfl (ih (index + 1) _)

namespace InTurn

variable {handle : Nat → String → StateM φ Report} {index : Nat} {specs : List String}
  {fs final : φ} {reports : List Report}

private theorem reports_on (h : InTurn handle index specs fs reports final)
    (hone : ∀ index spec fs, (handle index spec fs).1.IsOn spec) :
    List.Forall₂ Report.IsOn specs reports := by
  induction h with
  | nil index fs => exact .nil
  | @cons index spec _ fs _ _ _ _ hhandled _ ih =>
    have hreport := hone index spec fs
    rw [hhandled] at hreport
    exact .cons hreport ih

end InTurn

/-- A command handles its specifications in turn and tells of each how it fared. -/
def Handles (handle : Nat → String → StateM φ Report) (before : List CommandLine)
    (specs : List String) (start : φ) (run : CommandResult × φ) : Prop :=
  ∃ reports, InTurn handle 0 specs start reports run.2 ∧ run.1 = conclude before reports ∧
    Orderly specs run.1

end InTurn

/-! ## What changes -/

section Confined

variable {φ π : Type} [FileSystem φ π] {output : String} {specs more : List String}
  {lines moreLines : List CommandLine} {fs later final : φ}

/-- Paths lead where they led, and no text is other than it was but at the destination of a
specification that is reported as passed. -/
structure Confined (output : String) (specs : List String) (lines : List CommandLine)
    (fs later : φ) : Prop where
  located : ∀ path p, locate? fs path = some p → locate? later path = some p
  changed : ∀ p, contentAt later p ≠ contentAt fs p → ∃ spec ∈ specs,
    .passed spec (some (destination spec output)) ∈ lines ∧
      locate? later (destination spec output) = some p

private theorem Confined.of_extends {paths : List String} (h : Extends paths fs later) :
    Confined output specs lines fs later :=
  ⟨h.located, fun p hchanged => absurd (h.contentAt_eq p) hchanged⟩

theorem Confined.mono (h : Confined output specs lines fs later) (hspecs : specs ⊆ more)
    (hlines : lines ⊆ moreLines) : Confined output more moreLines fs later := by
  refine ⟨h.located, fun p hchanged => ?_⟩
  obtain ⟨spec, hspec, hline, hleads⟩ := h.changed p hchanged
  exact ⟨spec, hspecs hspec, hlines hline, hleads⟩

theorem Confined.trans (h : Confined output specs lines fs later)
    (h' : Confined output specs lines later final) : Confined output specs lines fs final := by
  refine ⟨fun path p hp => h'.located path p (h.located path p hp), fun p hchanged => ?_⟩
  by_cases hlate : contentAt final p = contentAt later p
  · rw [hlate] at hchanged
    obtain ⟨spec, hspec, hline, hleads⟩ := h.changed p hchanged
    exact ⟨spec, hspec, hline, h'.located _ p hleads⟩
  · exact h'.changed p hlate

private theorem InTurn.confined {handle : Nat → String → StateM φ Report} {index : Nat}
    {reports : List Report} (h : InTurn handle index specs fs reports final)
    (hone : ∀ index spec fs,
      Confined output [spec] (handle index spec fs).1.lines fs (handle index spec fs).2) :
    Confined output specs (reports.flatMap (·.lines)) fs final := by
  induction h with
  | nil index fs => exact .of_extends (.refl [] fs)
  | @cons index spec specs fs mid _ report reports hhandled _ ih =>
    have hfirst := hone index spec fs
    rw [hhandled] at hfirst
    rw [List.flatMap_cons]
    have hstep : Confined output (spec :: specs) (report.lines ++ reports.flatMap (·.lines))
        _ mid :=
      hfirst.mono (by simp) (List.subset_append_left _ _)
    exact hstep.trans (ih.mono (List.subset_cons_self spec specs) (List.subset_append_right _ _))

theorem InTurn.extends {handle : Nat → String → StateM φ Report} {index : Nat}
    {reports : List Report}
    (h : InTurn handle index specs fs reports final)
    (hone : ∀ index spec fs, Extends [] fs (handle index spec fs).2) : Extends [] fs final := by
  induction h with
  | nil index fs => exact .refl [] fs
  | @cons index spec _ fs _ _ _ _ hhandled _ ih =>
    have hfirst := hone index spec fs
    rw [hhandled] at hfirst
    exact hfirst.trans ih

end Confined

/-! ## One specification -/

section One

variable {φ π σ : Type} [FileStore (StateM φ)] [FileSystem φ π] [LawfulFileSystem φ] [IdSource σ]

private theorem Report.isOn_append {path : String} {before after : List CommandLine}
    {verdict : CommandLine} {ok : Bool} (hverdict : verdict.IsOn path ok)
    (hbefore : ∀ line ∈ before, line.isDetail = true)
    (hafter : ∀ line ∈ after, line.isDetail = true) :
    Report.IsOn path ⟨before ++ verdict :: after, ok⟩ :=
  ⟨before, verdict, after, rfl, hverdict, List.forall_mem_append.mpr ⟨hbefore, hafter⟩⟩

private theorem isDetail_events (events : List LogEvent) :
    ∀ line ∈ events.map CommandLine.event, line.isDetail = true := by
  intro line hline
  obtain ⟨e, _, rfl⟩ := List.mem_map.mp hline
  rfl

private theorem isDetail_remarks (diagnostics : Diagnostics) :
    ∀ line ∈ diagnostics.map CommandLine.remark, line.isDetail = true := by
  intro line hline
  obtain ⟨d, _, rfl⟩ := List.mem_map.mp hline
  rfl

/-- A specification that fails, with directories for its template at most, or one whose template is
stored at its destination. -/
theorem generateOne_outcomes (options : Options) (output : String) (source : σ) (spec : String)
    (fs : φ) :
    ∃ before later, (∀ line ∈ before, line.isDetail = true) ∧
      ((∃ reason, generateOne (m := StateM φ) options output source spec fs =
          (⟨before ++ [.failed spec (some reason)], false⟩, later) ∧
        Extends (pathsAbove (destination spec output)) fs later ∧
        ((∀ c, (draft options source spec (FileStore.read (m := StateM φ) spec fs).1).result ≠
          .ok c) → Extends [] fs later)) ∨
      ∃ (c : Compilation) (made : φ), generateOne (m := StateM φ) options output source spec fs =
          (⟨before ++ [.passed spec (some (destination spec output))], true⟩, later) ∧
        Extends (pathsAbove (destination spec output)) fs made ∧
        Stores (destination spec output) (Yaml.print c.document.toJson) made later) := by
  have hread := LawfulFileSystem.read_extends spec fs
  rw [generateOne, bind_apply]
  generalize hcontent : FileStore.read (m := StateM φ) spec fs = content at hread ⊢
  dsimp only
  generalize hd : draft options source spec content.1 = d
  cases hresult : d.result with
  | error reason =>
    refine ⟨d.events.map .event, content.2, isDetail_events d.events, Or.inl ⟨reason, rfl, ?_, ?_⟩⟩
    · exact hread.mono (List.nil_subset _)
    · exact fun _ => hread
  | ok c =>
    have hdetails : ∀ line ∈ d.events.map CommandLine.event ++ c.diagnostics.map .remark,
        line.isDetail = true :=
      List.forall_mem_append.mpr ⟨isDetail_events d.events, isDetail_remarks c.diagnostics⟩
    dsimp only
    -- the remarks are printed before anything is written, so either verdict stands behind them
    generalize d.events.map CommandLine.event ++ c.diagnostics.map CommandLine.remark = remarks
      at hdetails ⊢
    rw [bind_apply]
    rcases writeFile_cases (destination spec output) (Yaml.print c.document.toJson) content.2 with
      ⟨reason, later, hwrite, hextends⟩ | ⟨made, later, hwrite, hextends, hstores⟩
    · rw [hwrite]
      refine ⟨_, later, hdetails, Or.inl ⟨.inputOutput reason, rfl, ?_, ?_⟩⟩
      · exact (hread.mono (List.nil_subset _)).trans hextends
      · exact fun hfails => absurd rfl (hfails c)
    · rw [hwrite]
      have hwritten := List.forall_mem_append.mpr
        ⟨hdetails, isDetail_events [writtenEvent spec (destination spec output) c]⟩
      refine ⟨_, later, hwritten,
        Or.inr ⟨c, made, ?_, (hread.mono (List.nil_subset _)).trans hextends, hstores⟩⟩
      rw [List.append_assoc remarks]
      rfl

private theorem generateOne_handled (options : Options) (output : String) (source : σ)
    (spec : String) (fs : φ) :
    (generateOne (m := StateM φ) options output source spec fs).1.IsOn spec ∧
      Confined output [spec] (generateOne (m := StateM φ) options output source spec fs).1.lines fs
        (generateOne (m := StateM φ) options output source spec fs).2 := by
  obtain ⟨before, later, hdetails, h⟩ := generateOne_outcomes options output source spec fs
  rcases h with ⟨reason, hone, hextends, _⟩ | ⟨c, made, hone, hextends, hstores⟩
  · rw [hone]
    exact ⟨Report.isOn_append ⟨rfl, rfl⟩ hdetails (List.forall_mem_nil _), .of_extends hextends⟩
  · rw [hone]
    refine ⟨Report.isOn_append ⟨rfl, rfl⟩ hdetails (List.forall_mem_nil _),
      fun path p hp => hstores.located path p (hextends.located path p hp), fun p hchanged => ?_⟩
    rw [← hextends.contentAt_eq p] at hchanged
    refine ⟨spec, List.mem_singleton_self spec, by simp, ?_⟩
    by_contra hleads
    exact hchanged (hstores.contentAt_eq hleads)

private theorem generateOne_of_not_compiled {options : Options} {source : σ} {spec : String}
    {fs : φ} (output : String)
    (h : ∀ c, (draft options source spec
      (FileStore.read (m := StateM φ) spec fs).1).result ≠ .ok c) :
    (generateOne (m := StateM φ) options output source spec fs).1.ok = false ∧
      Extends [] fs (generateOne (m := StateM φ) options output source spec fs).2 := by
  rw [generateOne, bind_apply]
  dsimp only
  cases hresult : (draft options source spec (FileStore.read (m := StateM φ) spec fs).1).result with
  | error reason => exact ⟨rfl, LawfulFileSystem.read_extends spec fs⟩
  | ok c => exact absurd hresult (h c)

private theorem generateOne_ok_iff (options : Options) (output : String) (source : σ)
    (spec : String) (fs : φ) :
    (generateOne (m := StateM φ) options output source spec fs).1.ok = true ↔
      ∃ c, (draft options source spec (FileStore.read (m := StateM φ) spec fs).1).result = .ok c ∧
        (writeFile (m := StateM φ) (destination spec output) (Yaml.print c.document.toJson)
          (FileStore.read (m := StateM φ) spec fs).2).1 = .ok () := by
  rw [generateOne, bind_apply]
  generalize FileStore.read (m := StateM φ) spec fs = content
  dsimp only
  cases hresult : (draft options source spec content.1).result with
  | error reason =>
    refine iff_of_false Bool.false_ne_true ?_
    rintro ⟨c, ⟨⟩, _⟩
  | ok c =>
    dsimp only
    rw [bind_apply]
    cases hwrite : (writeFile (m := StateM φ) (destination spec output)
        (Yaml.print c.document.toJson) content.2).1 with
    | error reason =>
      refine iff_of_false Bool.false_ne_true ?_
      rintro ⟨_, hc, hwritten⟩
      cases hc
      rw [hwrite] at hwritten
      cases hwritten
    | ok _ => exact iff_of_true rfl ⟨c, rfl, hwrite⟩

/-- What a specification passes by where it is only checked: it has a value without violations. -/
theorem validateText_ok_iff (schema : Json) (path : String) (content : Except FileFault String) :
    (validateText schema path content).ok = true ↔
      ∃ text v, content = .ok text ∧ Yaml.parse? text = some v ∧ Schema.validate schema v = [] := by
  have hvalue : (validateText schema path content).ok = true ↔
      ∃ v, valueOf path content = .ok v ∧ Schema.validate schema v = [] := by
    rw [validateText]
    cases valueOf path content with
    | error reason => simp [failed]
    | ok v =>
      simp only [Except.ok.injEq, exists_eq_left']
      generalize Schema.validate schema v = violations
      cases violations <;> simp [Report.events]
  rw [hvalue]
  simp only [valueOf_eq_ok_iff]
  exact ⟨fun ⟨v, ⟨text, htext, hparse⟩, hvalid⟩ => ⟨text, v, htext, hparse, hvalid⟩,
    fun ⟨text, v, htext, hparse, hvalid⟩ => ⟨v, ⟨text, htext, hparse⟩, hvalid⟩⟩

private theorem validateText_isOn (schema : Json) (path : String)
    (content : Except FileFault String) :
    (validateText schema path content).IsOn path := by
  rw [validateText]
  cases valueOf path content with
  | error reason =>
    have hverdict : (CommandLine.failed path (some reason)).IsOn path false := ⟨rfl, rfl⟩
    exact Report.isOn_append hverdict (List.forall_mem_nil _) (List.forall_mem_nil _)
  | ok v =>
    dsimp only
    generalize Schema.validate schema v = violations
    have hevents := isDetail_events (Schema.validationEvents violations)
    cases violations with
    | nil => exact Report.isOn_append ⟨rfl, rfl⟩ hevents (List.forall_mem_nil _)
    | cons violation violations =>
      refine Report.isOn_append ⟨rfl, rfl⟩ hevents fun line hline => ?_
      obtain ⟨other, _, rfl⟩ := List.mem_map.mp hline
      rfl

end One

/-! ## The commands -/

section Commands

variable {φ π σ : Type} [FileStore (StateM φ)] [FileSystem φ π] [LawfulFileSystem φ] [IdSource σ]

private theorem validateOne_extends (schema : Json) (path : String) (fs : φ) :
    Extends [] fs (validateOne (m := StateM φ) schema path fs).2 := by
  rw [validateOne, bind_apply]
  exact LawfulFileSystem.read_extends path fs

private theorem validateOne_ok_iff (schema : Json) (path : String) (fs : φ) :
    (validateOne (m := StateM φ) schema path fs).1.ok = true ↔
      ∃ text v, (FileStore.read (m := StateM φ) path fs).1 = .ok text ∧
        Yaml.parse? text = some v ∧ Schema.validate schema v = [] := by
  rw [validateOne, bind_apply]
  exact validateText_ok_iff schema path _

private theorem validateOne_isOn (schema : Json) (path : String) (fs : φ) :
    (validateOne (m := StateM φ) schema path fs).1.IsOn path := by
  rw [validateOne, bind_apply]
  exact validateText_isOn schema path _

private theorem loadOptions_extends (config : Option String) (fs : φ) :
    Extends [] fs (loadOptions (m := StateM φ) config fs).2 := by
  cases config with
  | none => exact .refl [] fs
  | some path =>
    rw [loadOptions, bind_apply]
    exact LawfulFileSystem.read_extends path fs

private theorem loadSchema_extends (schema : Option String) (fs : φ) :
    Extends [] fs (loadSchema (m := StateM φ) schema fs).2 := by
  cases schema with
  | none => exact .refl [] fs
  | some path =>
    rw [loadSchema, bind_apply]
    exact LawfulFileSystem.read_extends path fs

private theorem optionsOf_eq_ok_iff {path : String} {content : Except FileFault String}
    {options : Options} :
    optionsOf path content = .ok options ↔
      ∃ text, content = .ok text ∧ Options.ofToml text = .ok options := by
  cases content <;> simp [optionsOf]

private theorem loadOptions_eq_ok_iff (config : Option String) (fs : φ) (options : Options)
    (events : List LogEvent) :
    (loadOptions (m := StateM φ) config fs).1 = .ok (options, events) ↔
      config = none ∧ options = {} ∧ events = [] ∨
      ∃ path text, config = some path ∧ (FileStore.read (m := StateM φ) path fs).1 = .ok text ∧
        Options.ofToml text = .ok options ∧ events = [options.loadedEvent] := by
  cases config with
  | none =>
    change Except.ok (({} : Options), ([] : List LogEvent)) = .ok (options, events) ↔ _
    simp [eq_comm]
  | some path =>
    rw [loadOptions, bind_apply]
    change (optionsOf path (FileStore.read (m := StateM φ) path fs).1).map _ = _ ↔ _
    constructor
    · intro h
      cases ho : optionsOf path (FileStore.read (m := StateM φ) path fs).1 with
      | error reason =>
        rw [ho] at h
        cases h
      | ok o =>
        rw [ho] at h
        cases h
        obtain ⟨text, hread, htoml⟩ := optionsOf_eq_ok_iff.mp ho
        exact Or.inr ⟨path, text, rfl, hread, htoml, rfl⟩
    · rintro (⟨⟨⟩, _⟩ | ⟨_, text, ⟨⟩, hread, htoml, rfl⟩)
      rw [optionsOf_eq_ok_iff.mpr ⟨text, hread, htoml⟩]
      rfl

private theorem schemaOf_eq_ok_iff {path : String} {content : Except FileFault String}
    {document : Json} :
    schemaOf path content = .ok document ↔
      ∃ text, content = .ok text ∧ Yaml.parse? text = some document ∧
        Schema.checkDocument document = .ok () := by
  cases content with
  | error fault => simp [schemaOf]
  | ok text =>
    rw [schemaOf]
    simp only [Except.ok.injEq, exists_eq_left']
    cases Yaml.parse? text with
    | none => simp
    | some v =>
      dsimp only
      constructor
      · intro h
        cases hcheck : Schema.checkDocument v with
        | error reason =>
          rw [hcheck] at h
          cases h
        | ok _ =>
          rw [hcheck] at h
          cases h
          exact ⟨rfl, hcheck⟩
      · rintro ⟨⟨⟩, hcheck⟩
        rw [hcheck]
        rfl

private theorem loadSchema_eq_ok_iff (schema : Option String) (fs : φ) (document : Json) :
    (loadSchema (m := StateM φ) schema fs).1 = .ok document ↔
      schema = none ∧ document = Schema.AgentSpec.document ∨
      ∃ path text, schema = some path ∧ (FileStore.read (m := StateM φ) path fs).1 = .ok text ∧
        Yaml.parse? text = some document ∧ Schema.checkDocument document = .ok () := by
  cases schema with
  | none =>
    change Except.ok Schema.AgentSpec.document = .ok document ↔ _
    simp [eq_comm]
  | some path =>
    rw [loadSchema, bind_apply]
    refine schemaOf_eq_ok_iff.trans ?_
    simp

private theorem isVerdictText_heading {title : String} {c : Char}
    (htitle : title.toList[2]? = some c) (hpassed : 'o' ≠ c) (hfailed : 'F' ≠ c) :
    ∀ line ∈ heading title, isVerdictText line.text = false := by
  intro line hline
  rw [List.mem_singleton.mp hline]
  exact isVerdictText_eq_false htitle hpassed hfailed

/-- With its options loaded, a command generates the templates in turn. -/
theorem generate_handles (sources : Nat → σ) (specs : List String) (output : String)
    (config publisher environmentId : Option String) {fs : φ} {options : Options}
    {events : List LogEvent}
    (hload : (loadOptions (m := StateM φ) config fs).1 = .ok (options, events)) :
    Handles
        (fun index => generateOne (override publisher environmentId options) output (sources index))
        (events.map .event ++ heading "Generating templates...") specs
        (loadOptions (m := StateM φ) config fs).2
        (generate (m := StateM φ) sources specs output config publisher environmentId fs) ∧
      Confined output specs
        (generate (m := StateM φ) sources specs output config publisher environmentId fs).1.lines fs
        (generate (m := StateM φ) sources specs output config publisher environmentId fs).2 := by
  have hturn := inTurn_generateAll (override publisher environmentId options) output sources 0
    specs (loadOptions (m := StateM φ) config fs).2
  have hreports := hturn.reports_on fun index spec fs =>
    (generateOne_handled _ output (sources index) spec fs).1
  have hconfined := hturn.confined fun index spec fs =>
    (generateOne_handled _ output (sources index) spec fs).2
  have hbefore : ∀ line ∈ events.map CommandLine.event ++ heading "Generating templates...",
      isVerdictText line.text = false := by
    refine List.forall_mem_append.mpr ⟨fun line hline => ?_, ?_⟩
    · exact isVerdictText_of_isDetail (isDetail_events events line hline)
    · exact isVerdictText_heading (c := 'n') (by decide) (by decide) (by decide)
  rw [generate, bind_apply, hload]
  refine ⟨⟨_, hturn, rfl, orderly_conclude hbefore hreports⟩, ?_⟩
  exact (Confined.of_extends (loadOptions_extends config fs)).trans
    (hconfined.mono (List.Subset.refl specs) (List.subset_append_right _ _))

private theorem validate_handles (specs : List String) (schema : Option String) {fs : φ}
    {document : Json} (hload : (loadSchema (m := StateM φ) schema fs).1 = .ok document) :
    Handles (fun _ => validateOne document) (heading "Validating specs...") specs
      (loadSchema (m := StateM φ) schema fs).2 (validate (m := StateM φ) specs schema fs) := by
  have hturn := inTurn_mapM (validateOne (m := StateM φ) document) 0 specs
    (loadSchema (m := StateM φ) schema fs).2
  have hreports := hturn.reports_on fun _ spec fs => validateOne_isOn document spec fs
  have hbefore : ∀ line ∈ heading "Validating specs...", isVerdictText line.text = false :=
    isVerdictText_heading (c := 'l') (by decide) (by decide) (by decide)
  rw [validate, bind_apply, hload]
  exact ⟨_, hturn, rfl, orderly_conclude hbefore hreports⟩

private theorem validate_extends (specs : List String) (schema : Option String) (fs : φ) :
    Extends [] fs (validate (m := StateM φ) specs schema fs).2 := by
  have hstart := loadSchema_extends schema fs
  rw [validate, bind_apply]
  cases (loadSchema (m := StateM φ) schema fs).1 with
  | error reason => exact hstart
  | ok document =>
    have hturn := inTurn_mapM (validateOne (m := StateM φ) document) 0 specs
      (loadSchema (m := StateM φ) schema fs).2
    exact hstart.trans (hturn.extends fun _ spec fs => validateOne_extends document spec fs)

/-- Whatever fails, each specification is handled once and in order, is said to have passed or
failed, and decides with the others how the command ends. A specification passes if and only if it
is read, parsed, validated, and for a template decoded, compiled and written. One that is not
compiled leaves the files as they are, texts change at most at the destinations of specifications
that pass, and nothing changes where specifications are only checked or where the options or the
schema cannot be loaded. -/
theorem specs_undisturbed (sources : Nat → σ) (specs : List String) (output : String)
    (config publisher environmentId schema : Option String) (fs : φ) :
    (∀ reason, (loadOptions (m := StateM φ) config fs).1 = .error reason →
      generate (m := StateM φ) sources specs output config publisher environmentId fs =
          (.failed reason, (loadOptions (m := StateM φ) config fs).2) ∧
        Extends [] fs (loadOptions (m := StateM φ) config fs).2) ∧
    (∀ options events, (loadOptions (m := StateM φ) config fs).1 = .ok (options, events) →
      Handles
          (fun index =>
            generateOne (override publisher environmentId options) output (sources index))
          (events.map .event ++ heading "Generating templates...") specs
          (loadOptions (m := StateM φ) config fs).2
          (generate (m := StateM φ) sources specs output config publisher environmentId fs) ∧
        Confined output specs
          (generate (m := StateM φ) sources specs output config publisher environmentId fs).1.lines
          fs (generate (m := StateM φ) sources specs output config publisher environmentId fs).2) ∧
    (∀ (options : Options) (source : σ) (spec : String) (before : φ),
      (¬ ∃ text v agent c, (FileStore.read (m := StateM φ) spec before).1 = .ok text ∧
        Yaml.parse? text = some v ∧
        Schema.requireValid (Schema.validate Schema.AgentSpec.document v) = .ok () ∧
        Agent.ofJson v = .ok agent ∧ (agent.compile options source).result = .ok c) →
      (generateOne (m := StateM φ) options output source spec before).1.ok = false ∧
        Extends [] before (generateOne (m := StateM φ) options output source spec before).2) ∧
    Extends [] fs (validate (m := StateM φ) specs schema fs).2 ∧
    (∀ reason, (loadSchema (m := StateM φ) schema fs).1 = .error reason →
      validate (m := StateM φ) specs schema fs =
        (.failed reason, (loadSchema (m := StateM φ) schema fs).2)) ∧
    (∀ document, (loadSchema (m := StateM φ) schema fs).1 = .ok document →
      Handles (fun _ => validateOne document) (heading "Validating specs...") specs
        (loadSchema (m := StateM φ) schema fs).2 (validate (m := StateM φ) specs schema fs)) ∧
    (∀ (options : Options) (source : σ) (spec : String) (before : φ),
      (generateOne (m := StateM φ) options output source spec before).1.ok = true ↔
        ∃ text v agent c, (FileStore.read (m := StateM φ) spec before).1 = .ok text ∧
          Yaml.parse? text = some v ∧
          Schema.requireValid (Schema.validate Schema.AgentSpec.document v) = .ok () ∧
          Agent.ofJson v = .ok agent ∧ (agent.compile options source).result = .ok c ∧
          (writeFile (m := StateM φ) (destination spec output) (Yaml.print c.document.toJson)
            (FileStore.read (m := StateM φ) spec before).2).1 = .ok ()) ∧
    (∀ (document : Json) (spec : String) (before : φ),
      (validateOne (m := StateM φ) document spec before).1.ok = true ↔
        ∃ text v, (FileStore.read (m := StateM φ) spec before).1 = .ok text ∧
          Yaml.parse? text = some v ∧ Schema.validate document v = []) ∧
    (∀ options events, (loadOptions (m := StateM φ) config fs).1 = .ok (options, events) ↔
      config = none ∧ options = {} ∧ events = [] ∨
      ∃ path text, config = some path ∧ (FileStore.read (m := StateM φ) path fs).1 = .ok text ∧
        Options.ofToml text = .ok options ∧ events = [options.loadedEvent]) ∧
    (∀ document, (loadSchema (m := StateM φ) schema fs).1 = .ok document ↔
      schema = none ∧ document = Schema.AgentSpec.document ∨
      ∃ path text, schema = some path ∧ (FileStore.read (m := StateM φ) path fs).1 = .ok text ∧
        Yaml.parse? text = some document ∧ Schema.checkDocument document = .ok ()) := by
  refine ⟨fun reason hload => ⟨?_, loadOptions_extends config fs⟩, fun options events hload => ?_,
    fun options source spec before hfails => ?_, validate_extends specs schema fs,
    fun reason hload => ?_, fun document hload => validate_handles specs schema hload,
    fun options source spec before => ?_, validateOne_ok_iff, loadOptions_eq_ok_iff config fs,
    loadSchema_eq_ok_iff schema fs⟩
  · rw [generate, bind_apply, hload]
    rfl
  · exact generate_handles sources specs output config publisher environmentId hload
  · refine generateOne_of_not_compiled output fun c hc => hfails ?_
    obtain ⟨text, v, agent, hread, hparse, hvalid, hagent, hcompile⟩ := draft_eq_ok_iff.mp hc
    exact ⟨text, v, agent, c, hread, hparse, hvalid, hagent, hcompile⟩
  · rw [validate, bind_apply, hload]
    rfl
  · rw [generateOne_ok_iff]
    constructor
    · rintro ⟨c, hc, hwritten⟩
      obtain ⟨text, v, agent, hread, hparse, hvalid, hagent, hcompile⟩ := draft_eq_ok_iff.mp hc
      exact ⟨text, v, agent, c, hread, hparse, hvalid, hagent, hcompile, hwritten⟩
    · rintro ⟨text, v, agent, c, hread, hparse, hvalid, hagent, hcompile, hwritten⟩
      exact ⟨c, draft_eq_ok_iff.mpr ⟨text, v, agent, hread, hparse, hvalid, hagent, hcompile⟩,
        hwritten⟩

/-- One of three specifications is missing and the other two pass, for a template and where they are
only checked. Nothing is handled where the options are missing. -/
theorem shelf_undisturbed :
    Handles (fun _ => generateOne (m := StateM FileTree) {} "templates/" SequentialIds.fresh)
        (heading "Generating templates...") shelfSpecs shelf
        (generate (m := StateM FileTree) (fun _ => SequentialIds.fresh) shelfSpecs "templates/"
          none none none shelf) ∧
      (generate (m := StateM FileTree) (fun _ => SequentialIds.fresh) shelfSpecs "templates/" none
          none none shelf).1.output .silent =
        ["Generating templates...",
          "  ok    specs/alpha.yaml -> templates/alpha-template.yaml",
          "  FAIL  specs/gone.yaml: i/o error: failed to read 'specs/gone.yaml': " ++
            "No such file or directory (os error 2)",
          "  ok    ./specs/beta.yaml -> templates/beta-template.yaml"] ∧
      (∀ p, entryAt (generateOne (m := StateM FileTree) {} "templates/" SequentialIds.fresh
        "specs/gone.yaml" shelf).2 p = entryAt shelf p) ∧
      (∃ reason, generate (m := StateM FileTree) (fun _ => SequentialIds.fresh) shelfSpecs
        "templates/" (some "absent.toml") none none shelf = (.failed reason, shelf)) ∧
      Handles (fun _ => validateOne (m := StateM FileTree) Schema.AgentSpec.document)
        (heading "Validating specs...") shelfSpecs shelf
        (validate (m := StateM FileTree) shelfSpecs none shelf) ∧
      (validateOne (m := StateM FileTree) Schema.AgentSpec.document "specs/alpha.yaml" shelf).1.ok =
        true ∧
      (validateOne (m := StateM FileTree) Schema.AgentSpec.document "specs/gone.yaml" shelf).1.ok =
        false := by
  have hloaded := specs_undisturbed (fun _ => SequentialIds.fresh) shelfSpecs
    "templates/" none none none none shelf
  have hunloaded := specs_undisturbed (fun _ => SequentialIds.fresh) shelfSpecs
    "templates/" (some "absent.toml") none none none shelf
  obtain ⟨-, hgenerate, huncompiled, -, -, hvalidate, -, hchecked, -, -⟩ := hloaded
  have hmissing : (FileStore.read (m := StateM FileTree) "specs/gone.yaml" shelf).1 =
      .error .missing := by decide
  refine ⟨(hgenerate {} [] rfl).1, by decide +kernel, ?_, ⟨_, (hunloaded.1 _ rfl).1⟩,
    hvalidate _ rfl, by decide +kernel, ?_⟩
  · refine (huncompiled {} SequentialIds.fresh "specs/gone.yaml" shelf ?_).2.entryAt_eq
    rintro ⟨text, _, _, _, hread, _⟩
    rw [hmissing] at hread
    cases hread
  · rw [Bool.eq_false_iff, ne_eq, hchecked]
    rintro ⟨text, _, hread, _⟩
    rw [hmissing] at hread
    cases hread

end Commands

end Botwright.Command
