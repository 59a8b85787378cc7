import Botwright.Proofs.Compile.Diagnostics
import Botwright.Proofs.Compile.InStep
import Botwright.Proofs.Compile.Visits

/-!
# What a compilation logs

Among the events in the log of a compilation, the warnings are told by the specification and the
document, as the diagnostics are, and they are in step with them: each warning among the diagnostics
has one event of its own, in the same order, and there are no others.
-/

namespace Botwright

open Recording

def alertUnless (p : Prop) [Decidable p] (e : LogEvent) : List LogEvent := if p then [] else [e]

private theorem alerts_recovery_unless {p : Prop} [Decidable p] {b : Bool} (h : b = true ↔ p)
    (message : String) (fields : List (String × FieldValue)) (context : String) (f : Finding) :
    (written (unless b do warn message fields; report context f)).alerts =
      alertUnless p ⟨.warn, message, fields⟩ := by
  rw [written_recovery_unless h, alertUnless, apply_ite Journal.alerts]
  rfl

@[simp] theorem alerts_progress (p : Progress) : (written (progress p)).alerts = [] := by
  cases p <;> rfl

private theorem alerts_written_forM {α : Type} {f : α → Recording Unit} (hf : ∀ a, Adds (f a))
    (l : List α) : (written (forM l f)).alerts = l.flatMap fun a => (written (f a)).alerts :=
  view_written_forM rfl Journal.alerts_append hf l

namespace Action

def variableAlerts (context name : String) : List LogEvent :=
  alertUnless (HasWordChar name) ⟨.warn, "variable name sanitizes to nothing, using default",
    [("variable", .text name), ("context", .text context)]⟩

def entityAlerts (context tag : String) : List LogEvent :=
  alertUnless (tag ∈ Catalogue.entities.map Prod.fst)
    ⟨.warn, "unknown entity type, expecting a string",
      [("entity_type", .text tag), ("context", .text context)]⟩

/-- The events that warn of an action itself. -/
def alerts (context : String) : Action → List LogEvent
  | unrecognized kind _ => [⟨.warn, "unknown action type, emitting placeholder",
      [("action_type", .text kind), ("context", .text context)]⟩]
  | malformed kind _ reason => [⟨.warn, "malformed action, emitting placeholder",
      [("action_type", .text kind), ("context", .text context), ("error", .text reason.message)]⟩]
  | question _ answer entity =>
      answer.elim [] (variableAlerts context) ++ entity.elim [] (entityAlerts context)
  | setVariable name _ => variableAlerts context name
  | _ => []

@[simp] theorem alerts_recordVariable (path : String) (answer : Option String) :
    (written (recordVariable path answer)).alerts = answer.elim [] (variableAlerts path) := by
  cases answer with
  | none => rfl
  | some name => exact alerts_recovery_unless (isUsableVariable_iff name) _ _ path _

@[simp] theorem alerts_recordEntity (path : String) (entity : Option String) :
    (written (recordEntity path entity)).alerts = entity.elim [] (entityAlerts path) := by
  cases entity with
  | none => rfl
  | some tag =>
    exact alerts_recovery_unless (Catalogue.isSome_lookup tag Catalogue.entities) _ _ path _

@[simp] theorem alerts_recordFaults (path : String) (a : Action) :
    (written (a.recordFaults path)).alerts = a.alerts path := by
  cases a with
  | question prompt answer entity =>
    simp [recordFaults, written_bind _ (adds_recordEntity path entity), alerts]
  | setVariable name value => exact alerts_recordVariable path (some name)
  | _ => rfl

@[simp] theorem alerts_recordOwn (path : String) (a : Action) :
    (written (a.recordOwn path)).alerts = a.alerts path := by
  have hannounce : (written (a.announce path)).alerts = [] := by
    rw [announce]
    split
    · exact alerts_progress _
    · rfl
  simp [recordOwn, written_bind _ (adds_recordFaults path a), hannounce]

end Action

def Topic.alerts (t : Topic) : List LogEvent :=
  (Action.located 0 t.actionList).flatMap fun x => x.action.alerts (x.path (topicPath t.name))

@[simp] theorem Topic.alerts_record (publisher : String) (t : Topic) :
    (written (t.record publisher)).alerts = t.alerts := by
  have hactions : (written (Action.recordList (topicPath t.name) 0 t.actionList)).alerts =
      t.alerts := by
    rw [Action.recordList_eq, alerts_written_forM (Located.adds_record _)]
    exact List.flatMap_congr fun x _ => Action.alerts_recordOwn _ x.action
  simp [Topic.record, written_bind _ (adds_progress _), hactions]

def Visit.alerts (known : List String) (path : String) (x : Visit) : List LogEvent :=
  match x.node with
  | .beginDialog _ dialog => alertUnless (dialog ∈ known)
      ⟨.warn, "topic reference does not resolve",
        [("target_topic", .text dialog), ("context", .text (x.path path))]⟩
  | _ => []

@[simp] theorem Visit.alerts_findings (known : List String) (path : String) (x : Visit) :
    (x.findings known path).flatMap (fun y => (written y.record).alerts) = x.alerts known path := by
  obtain ⟨way, before, n⟩ := x
  -- being behind an end is remarked on, but not logged
  have hunreachable (context : String) :
      ((before.findIdx? Node.isEnding).map (.unreachable n.kind)).toList.flatMap
        (fun f => (written (PlacedFinding.record (context, f))).alerts) = [] := by
    cases before.findIdx? Node.isEnding <;> rfl
  rw [findings, Node.placedFindings, Node.findings, List.flatMap_map, List.flatMap_append,
    hunreachable, List.nil_append]
  cases n with
  | beginDialog id dialog =>
    by_cases hd : dialog ∈ known
    · simp only [Node.unresolved, alerts, alertUnless, if_pos hd]
      rfl
    · simp only [Node.unresolved, alerts, alertUnless, if_neg hd]
      rfl
  | _ => rfl

namespace BotDocument

/-- The events that warn of references, dialog by dialog and depth first. -/
def alerts (d : BotDocument) : List LogEvent :=
  d.dialogs.flatMap fun dialog => (Node.visits [] dialog.trigger.actions).flatMap
    (Visit.alerts d.schemaNames (topicPath dialog.displayName))

@[simp] theorem alerts_inspect (d : BotDocument) : (written d.inspect).alerts = d.alerts := by
  rw [inspect_eq, alerts_written_forM PlacedFinding.adds_record, check_eq_visits,
    List.flatMap_assoc, alerts]
  refine List.flatMap_congr fun dialog _ => ?_
  rw [List.flatMap_assoc]
  exact List.flatMap_congr fun x _ => x.alerts_findings _ _

end BotDocument

namespace Agent

def languageAlerts (agent : Agent) : List LogEvent :=
  agent.language.elim [] fun tag => alertUnless (tag ∈ Catalogue.locales.map Prod.fst)
    ⟨.warn, "unknown locale, using en-US", [("language", .text tag)]⟩

def cloudAlerts (options : Options) (agent : Agent) : List LogEvent :=
  let tag := agent.cloud.getD options.cloud
  alertUnless (tag ∈ Catalogue.clouds.map Prod.fst)
    ⟨.warn, "unknown cloud, using commercial", [("cloud", .text tag)]⟩

@[simp] theorem alerts_recordLanguage (agent : Agent) :
    (written agent.recordLanguage).alerts = agent.languageAlerts := by
  rw [recordLanguage, languageAlerts]
  cases agent.language with
  | none => rfl
  | some tag =>
    exact alerts_recovery_unless (Catalogue.isSome_lookup tag Catalogue.locales) _ _ _ _

@[simp] theorem alerts_recordCloud (options : Options) (agent : Agent) :
    (written (agent.recordCloud options)).alerts = agent.cloudAlerts options :=
  alerts_recovery_unless (Catalogue.isSome_lookup _ Catalogue.clouds) _ _ _ _

private theorem alerts_recordAssembly (options : Options) (agent : Agent) (name : String)
    (topics : List Topic) :
    (written (agent.recordAssembly options name topics)).alerts =
      agent.languageAlerts ++ agent.cloudAlerts options ++ topics.flatMap Topic.alerts := by
  have htopics : (written (forM topics (Topic.record options.publisher))).alerts =
      topics.flatMap Topic.alerts := by
    rw [alerts_written_forM (Topic.adds_record options.publisher)]
    exact List.flatMap_congr fun t _ => t.alerts_record options.publisher
  simp [written_recordAssembly, htopics]

@[simp] theorem alerts_finalCheck (options : Options) (d : BotDocument) :
    (written (finalCheck options d)).alerts = if options.checkReferences then d.alerts else [] := by
  rw [finalCheck]
  split
  · exact d.alerts_inspect
  · rfl

variable {σ : Type} [IdSource σ]

/-- The warnings in the log of a compilation are one for each warning among its diagnostics, in the
same order and about the same. They are those about the locale, the cloud and the actions of the
specification, each at its own place, and those about references if the document is checked. -/
theorem compile_log (options : Options) (agent : Agent) (s : σ) (r : Compilation)
    (h : (agent.compile options s).result = .ok r) :
    List.Forall₂ Tells r.diagnostics.warnings (agent.compile options s).journal.alerts ∧
    (agent.compile options s).journal.alerts = agent.languageAlerts ++ agent.cloudAlerts options ++
      agent.topicList.flatMap Topic.alerts ++
      (if options.checkReferences then r.document.alerts else []) := by
  obtain ⟨name, ending, hjournal, hdiagnostics⟩ := compile_journal options agent s r h
  refine ⟨?_, ?_⟩
  · rw [hdiagnostics]
    exact inStep_compile options agent s
  · simp [hjournal, alerts_recordAssembly]

/-- Every kind of warning, and a node behind an end of the conversation. -/
def astray : Agent := { faltering with
  topics := some (faltering.topicList ++
    [⟨"Lost", none, none, some [.endConversation, .callTopic "Nowhere"]⟩]) }

private theorem astray_acceptable : astray.Acceptable elsewhere where
  identified := ⟨⟨"Desk", rfl, by decide⟩, (Naming.isPublisher_iff _).mp (by decide)⟩
  usable := by decide
  distinct := by decide
  reserved := by decide

theorem astray_log :
    ∃ r, (astray.compile elsewhere SequentialIds.fresh).result = .ok r ∧
      List.Forall₂ Tells r.diagnostics.warnings
        (astray.compile elsewhere SequentialIds.fresh).journal.alerts ∧
      (astray.compile elsewhere SequentialIds.fresh).journal.alerts.map (·.fields) =
        [[("language", .text "tlh")], [("cloud", .text "moon")],
          [("variable", .text "??"),
            ("context", .text "topic 'Odd' > actions[0].conditions[0].then[1]")],
          [("entity_type", .text "colour"),
            ("context", .text "topic 'Odd' > actions[0].conditions[0].then[1]")],
          [("action_type", .text "map"), ("context", .text "topic 'Odd' > actions[0].else[0]")],
          [("variable", .text "!"), ("context", .text "topic 'Odd' > actions[1]")],
          [("action_type", .text "call_topic"), ("context", .text "topic 'Odd' > actions[2]"),
            ("error", .text (DecodeError.wrongType .null .text).message)],
          [("target_topic", .text "af_topic_Nowhere"),
            ("context", .text "topic 'Lost' > actions[1]")]] := by
  obtain ⟨r, h⟩ :=
    compile_of_acceptable SequentialIds.fresh elsewhere astray astray_acceptable
  refine ⟨r, h, (compile_log elsewhere astray SequentialIds.fresh r h).1, ?_⟩
  decide +kernel

end Agent
end Botwright
