import Botwright.Proofs.Compile.DepthFirst
import Botwright.Proofs.Compile.Findings

/-!
# What a compilation warns of

The diagnostics of a compilation are told by the specification: the warnings about its locale and
its cloud, those about its actions in the order of their places, and what the check of the document
finds. Nothing else is added, and nothing is left out.
-/

namespace Botwright

open Recording

/-- A warning under a code, where a condition does not hold. -/
def warningUnless (p : Prop) [Decidable p] (code context : String) (f : Finding) : Diagnostics :=
  if p then [] else [⟨.warning, code, context, f.message⟩]

private theorem diagnostics_recovery_unless {p : Prop} [Decidable p] {b : Bool} (h : b = true ↔ p)
    (message : String) (fields : List (String × FieldValue)) (context : String) {f : Finding}
    (hf : f.severity = .warning) :
    (written (unless b do warn message fields; report context f)).diagnostics =
      warningUnless p f.code context f := by
  rw [written_recovery_unless h, warningUnless, apply_ite Journal.diagnostics, ← hf]
  rfl

@[simp] theorem diagnostics_progress (p : Progress) :
    (written (progress p)).diagnostics = [] := rfl

theorem Catalogue.isSome_lookup {α : Type} (tag : String) (table : List (String × α)) :
    (lookup tag table).isSome = true ↔ tag ∈ table.map Prod.fst := by
  simp [lookup]

/-- Somewhere in a name there is a letter, a digit or an underscore. -/
def HasWordChar (name : String) : Prop :=
  ∃ c ∈ name.toList, Naming.isAlphanumeric c = true ∨ c = '_'

instance (name : String) : Decidable (HasWordChar name) :=
  List.decidableBEx (fun c => Naming.isAlphanumeric c = true ∨ c = '_') name.toList

namespace Action

theorem isUsableVariable_iff (name : String) :
    isUsableVariable name = true ↔ HasWordChar name := by
  have hchar (c : Char) : (Naming.isAlphanumeric c || c == '_') = true ↔
      Naming.isAlphanumeric c = true ∨ c = '_' := by
    rw [Bool.or_eq_true, beq_iff_eq]
  rw [isUsableVariable, Naming.sanitizeVariable, Bool.not_eq_true', ← Bool.not_eq_true,
    String.isEmpty_iff, String.ofList_eq_empty_iff, List.filter_eq_nil_iff]
  simp only [HasWordChar, hchar, not_forall, not_not, exists_prop]

def variableWarnings (context name : String) : Diagnostics :=
  warningUnless (HasWordChar name) "invalid-variable-name" context (.invalidVariable name)

def entityWarnings (context tag : String) : Diagnostics :=
  warningUnless (tag ∈ Catalogue.entities.map Prod.fst) "unknown-entity-type" context
    (.unknownEntity tag)

/-- The warnings about an action itself. -/
def warnings (context : String) : Action → Diagnostics
  | unrecognized kind _ =>
      [⟨.warning, "unknown-action", context, (Finding.unknownAction kind).message⟩]
  | malformed kind _ reason =>
      [⟨.warning, "malformed-action", context, (Finding.malformedAction kind reason).message⟩]
  | question _ answer entity =>
      answer.elim [] (variableWarnings context) ++ entity.elim [] (entityWarnings context)
  | setVariable name _ => variableWarnings context name
  | _ => []

@[simp] theorem diagnostics_recordVariable (path : String) (answer : Option String) :
    (written (recordVariable path answer)).diagnostics =
      answer.elim [] (variableWarnings path) := by
  cases answer with
  | none => rfl
  | some name => exact diagnostics_recovery_unless (isUsableVariable_iff name) _ _ path rfl

@[simp] theorem diagnostics_recordEntity (path : String) (entity : Option String) :
    (written (recordEntity path entity)).diagnostics = entity.elim [] (entityWarnings path) := by
  cases entity with
  | none => rfl
  | some tag =>
    exact diagnostics_recovery_unless (Catalogue.isSome_lookup tag Catalogue.entities) _ _ path rfl

@[simp] theorem diagnostics_recordFaults (path : String) (a : Action) :
    (written (a.recordFaults path)).diagnostics = a.warnings path := by
  cases a with
  | question prompt answer entity =>
    simp [recordFaults, written_bind _ (adds_recordEntity path entity), warnings]
  | setVariable name value => exact diagnostics_recordVariable path (some name)
  | _ => rfl

@[simp] theorem diagnostics_recordOwn (path : String) (a : Action) :
    (written (a.recordOwn path)).diagnostics = a.warnings path := by
  have hannounce : (written (a.announce path)).diagnostics = [] := by
    rw [announce]
    split <;> rfl
  simp [recordOwn, written_bind _ (adds_recordFaults path a), hannounce]

end Action

namespace Located

/-- The warnings about an action at its place. -/
def warnings (path : String) (x : Located) : Diagnostics := x.action.warnings (x.path path)

end Located

private theorem Action.diagnostics_recordList (path : String) (l : List Action) :
    (written (recordList path 0 l)).diagnostics =
      (located 0 l).flatMap (Located.warnings path) := by
  rw [recordList_eq, diagnostics_written_forM (Located.adds_record path)]
  exact List.flatMap_congr fun x _ => diagnostics_recordOwn (x.path path) x.action

namespace Topic

/-- The warnings about the actions of a topic and those inside them, in the order of their
places. -/
def warnings (t : Topic) : Diagnostics :=
  (Action.located 0 t.actionList).flatMap (Located.warnings (topicPath t.name))

@[simp] theorem diagnostics_record (publisher : String) (t : Topic) :
    (written (t.record publisher)).diagnostics = t.warnings := by
  simp [Topic.record, written_bind _ (adds_progress _), Action.diagnostics_recordList, warnings]

end Topic

namespace Agent

def languageWarnings (agent : Agent) : Diagnostics :=
  agent.language.elim [] fun tag =>
    warningUnless (tag ∈ Catalogue.locales.map Prod.fst) "unknown-locale" "metadata.language"
      (.unknownLocale tag)

def cloudWarnings (options : Options) (agent : Agent) : Diagnostics :=
  let tag := agent.cloud.getD options.cloud
  warningUnless (tag ∈ Catalogue.clouds.map Prod.fst) "unknown-cloud" "metadata.cloud"
    (.unknownCloud tag)

@[simp] theorem diagnostics_recordLanguage (agent : Agent) :
    (written agent.recordLanguage).diagnostics = agent.languageWarnings := by
  rw [recordLanguage, languageWarnings]
  cases agent.language with
  | none => rfl
  | some tag =>
    exact diagnostics_recovery_unless (Catalogue.isSome_lookup tag Catalogue.locales) _ _ _ rfl

@[simp] theorem diagnostics_recordCloud (options : Options) (agent : Agent) :
    (written (agent.recordCloud options)).diagnostics = agent.cloudWarnings options :=
  diagnostics_recovery_unless (Catalogue.isSome_lookup _ Catalogue.clouds) _ _ _ rfl

private theorem diagnostics_recordAssembly (options : Options) (agent : Agent) (name : String)
    (topics : List Topic) :
    (written (agent.recordAssembly options name topics)).diagnostics =
      agent.languageWarnings ++ agent.cloudWarnings options ++ topics.flatMap Topic.warnings := by
  have htopics :
      (written (forM topics (Topic.record options.publisher))).diagnostics =
        topics.flatMap Topic.warnings := by
    rw [diagnostics_written_forM (Topic.adds_record options.publisher)]
    exact List.flatMap_congr fun t _ => t.diagnostics_record options.publisher
  simp [written_recordAssembly, htopics]

/-- What the specification tells, and behind it what the check finds in the document. -/
theorem diagnostics_of_compile {σ : Type} [IdSource σ] {options : Options} {agent : Agent} {s : σ}
    {r : Compilation} (h : (agent.compile options s).result = .ok r) :
    r.diagnostics = agent.languageWarnings ++ agent.cloudWarnings options ++
      agent.topicList.flatMap Topic.warnings ++
      (if options.checkReferences then r.document.check.map fun x => x.2.diagnostic x.1
        else []) := by
  obtain ⟨name, _, _, _, rfl⟩ := (compile_eq_ok options agent s r).mp h
  rw [diagnostics_conclude, diagnostics_recordAssembly]
  rfl

/-- The diagnostics of a compilation are the warnings about its locale and cloud, those about the
actions of its topics, depth first and each at its own place, and the findings of the check if
there is one. -/
theorem compile_diagnostics {σ : Type} [IdSource σ] (options : Options) (agent : Agent) (s : σ)
    (r : Compilation) (h : (agent.compile options s).result = .ok r) :
    r.diagnostics = agent.languageWarnings ++ agent.cloudWarnings options ++
      agent.topicList.flatMap Topic.warnings ++
      (if options.checkReferences then r.document.check.map fun x => x.2.diagnostic x.1 else []) ∧
    (∀ t ∈ agent.topicList, ∀ xs, Action.DepthFirst t.actionList xs ↔
      xs = Action.located 0 t.actionList) ∧
    ∀ t ∈ agent.topicList, ∀ u ∈ agent.topicList, ∀ x ∈ Action.located 0 t.actionList,
      ∀ y ∈ Action.located 0 u.actionList,
        x.path (topicPath t.name) = y.path (topicPath u.name) → t = u ∧ x = y := by
  have hok := acceptable_of_compile h
  refine ⟨diagnostics_of_compile h, fun t _ xs => Action.depthFirst_iff t.actionList xs, ?_⟩
  intro t ht u hu x hx y hy hpath
  obtain ⟨hname, hway, hindex⟩ := placePath_topicPath_inj hpath
  obtain rfl : t = u :=
    List.inj_on_of_nodup_map hok.distinct ht hu (congrArg Naming.sanitizeSchema hname)
  exact ⟨rfl, Action.eq_of_mem_located hx hy hway hindex⟩

def faltering : Agent := { empty with
  name := some "Desk"
  metadata := some ⟨some "tlh", none, none, none⟩
  topics := some [
    ⟨"Odd", none, none, some [
      .condition [⟨"=true", [.message "One moment.",
          .question "Which one?" (some "??") (some "colour")]⟩]
        (some [.unrecognized "map" (.object [("type", .string "map")])]),
      .setVariable "!" .null,
      .malformed "call_topic" .null (.wrongType .null .text)]⟩] }

def elsewhere : Options := { cloud := "moon" }

private theorem faltering_acceptable : faltering.Acceptable elsewhere where
  identified := ⟨⟨"Desk", rfl, by decide⟩, (Naming.isPublisher_iff _).mp (by decide)⟩
  usable := by decide
  distinct := by decide
  reserved := by decide

theorem faltering_diagnostics :
    ∃ r, (faltering.compile elsewhere SequentialIds.fresh).result = .ok r ∧
      r.diagnostics.map (fun d => (d.code, d.context)) =
        [("unknown-locale", "metadata.language"), ("unknown-cloud", "metadata.cloud"),
          ("invalid-variable-name", "topic 'Odd' > actions[0].conditions[0].then[1]"),
          ("unknown-entity-type", "topic 'Odd' > actions[0].conditions[0].then[1]"),
          ("unknown-action", "topic 'Odd' > actions[0].else[0]"),
          ("invalid-variable-name", "topic 'Odd' > actions[1]"),
          ("malformed-action", "topic 'Odd' > actions[2]")] ++
        r.document.check.map fun x => (x.2.code, x.1) := by
  obtain ⟨r, h⟩ :=
    compile_of_acceptable SequentialIds.fresh elsewhere faltering faltering_acceptable
  have hlist := (compile_diagnostics elsewhere faltering SequentialIds.fresh r h).1
  refine ⟨r, h, ?_⟩
  rw [hlist, List.map_append]
  refine congrArg₂ (· ++ ·) ?_ List.map_map
  decide

end Agent
end Botwright
