import Botwright.Proofs.Compile.Outcome
import Mathlib.Data.List.Forall2

/-!
# The log and the diagnostics in step

A compilation writes its log and its diagnostics by separate steps. They are in step if the warnings
among the diagnostics and the events that warn pair up, one to one and in order, each pair about the
same. A recovery keeps them in step, for it warns and reports of the same; a remark and an event of
progress warn on neither side. By induction on the actions and on the nodes inside each other no
compilation and no check lets one output run ahead of the other.
-/

namespace Botwright

open Recording

namespace Diagnostics

/-- The diagnostics that are more than remarks. -/
def warnings (ds : Diagnostics) : Diagnostics := ds.filter (·.severity = .warning)

@[simp] theorem warnings_append (ds more : Diagnostics) :
    warnings (ds ++ more) = warnings ds ++ warnings more := List.filter_append ds more

end Diagnostics

namespace Journal

/-- The events that warn. -/
def alerts (j : Journal) : List LogEvent := j.events.filter (·.level = .warn)

@[simp] theorem alerts_append (j later : Journal) :
    (j ++ later).alerts = j.alerts ++ later.alerts :=
  List.filter_append j.events later.events

end Journal

/-- A warning among the diagnostics and an event in the log are about the same: the event is that of
the warning's code, has in its fields what the message quotes, and its context if it has one. -/
inductive Tells : Diagnostic → LogEvent → Prop
  | unknownAction (kind context : String) : Tells
      ⟨.warning, "unknown-action", context,
        "unknown action type '" ++ kind ++ "' replaced with a placeholder message"⟩
      ⟨.warn, "unknown action type, emitting placeholder",
        [("action_type", .text kind), ("context", .text context)]⟩
  | malformedAction (kind reason context : String) : Tells
      ⟨.warning, "malformed-action", context,
        "'" ++ kind ++ "' action is malformed (" ++ reason ++ "), replaced with a placeholder"⟩
      ⟨.warn, "malformed action, emitting placeholder",
        [("action_type", .text kind), ("context", .text context), ("error", .text reason)]⟩
  | invalidVariable (name context : String) : Tells
      ⟨.warning, "invalid-variable-name", context,
        "variable name '" ++ name ++ "' has no usable characters; using 'Response'"⟩
      ⟨.warn, "variable name sanitizes to nothing, using default",
        [("variable", .text name), ("context", .text context)]⟩
  | unknownEntity (tag context : String) : Tells
      ⟨.warning, "unknown-entity-type", context,
        "unknown entity type '" ++ tag ++ "' mapped to StringPrebuiltEntity"⟩
      ⟨.warn, "unknown entity type, expecting a string",
        [("entity_type", .text tag), ("context", .text context)]⟩
  | unknownLocale (tag context : String) : Tells
      ⟨.warning, "unknown-locale", context, "unknown locale '" ++ tag ++ "' mapped to LCID 1033"⟩
      ⟨.warn, "unknown locale, using en-US", [("language", .text tag)]⟩
  | unknownCloud (tag context : String) : Tells
      ⟨.warning, "unknown-cloud", context,
        "unknown cloud '" ++ tag ++ "' mapped to the commercial cloud"⟩
      ⟨.warn, "unknown cloud, using commercial", [("cloud", .text tag)]⟩
  | unresolvedTopic (schemaName context : String) : Tells
      ⟨.warning, "unresolved-topic-reference", context,
        "no topic with schema name '" ++ schemaName ++ "' exists in this document"⟩
      ⟨.warn, "topic reference does not resolve",
        [("target_topic", .text schemaName), ("context", .text context)]⟩

/-- The warnings on both sides pair up in order. -/
def Journal.InStep (j : Journal) : Prop := List.Forall₂ Tells j.diagnostics.warnings j.alerts

/-- Where the outputs are in step, they still are afterwards. -/
def KeepsStep {α : Type} (p : Recording α) : Prop := ∀ j, j.InStep → (p j).2.InStep

section Steps

variable {α β : Type}

private theorem keepsStep_pure (a : α) : KeepsStep (pure a) := fun _ h => h

private theorem keepsStep_get : KeepsStep get := fun _ h => h

theorem KeepsStep.bind {p : Recording α} {q : α → Recording β} (hp : KeepsStep p)
    (hq : ∀ a, KeepsStep (q a)) : KeepsStep (p >>= q) :=
  fun j h => hq (p j).1 (p j).2 (hp j h)

private theorem keepsStep_ite {p q : Recording Unit} (c : Prop) [Decidable c] (hp : KeepsStep p)
    (hq : KeepsStep q) : KeepsStep (if c then p else q) := by
  split
  · exact hp
  · exact hq

private theorem keepsStep_unless {p : Recording Unit} (c : Prop) [Decidable c] (hp : KeepsStep p) :
    KeepsStep (unless c do p) :=
  keepsStep_ite c (keepsStep_pure ()) hp

private theorem keepsStep_when {p : Recording Unit} (c : Prop) [Decidable c] (hp : KeepsStep p) :
    KeepsStep (do if c then p) :=
  keepsStep_ite c hp (keepsStep_pure ())

private theorem keepsStep_forM {f : α → Recording Unit} (hf : ∀ a, KeepsStep (f a)) (l : List α) :
    KeepsStep (forM l f) := by
  induction l with
  | nil => exact keepsStep_pure ()
  | cons a l ih =>
    rw [List.forM_cons]
    exact (hf a).bind fun _ => ih

private theorem keepsStep_progress (p : Progress) : KeepsStep (progress p) := by
  intro j h
  have halerts : (progress p j).2.alerts = j.alerts := by
    change (j.events ++ [p.event]).filter _ = _
    rw [List.filter_append]
    cases p <;> exact List.append_nil _
  change List.Forall₂ Tells j.diagnostics.warnings _
  rwa [halerts]

private theorem keepsStep_remark {f : Finding} (context : String) (hf : f.severity = .info) :
    KeepsStep (report context f) := by
  intro j h
  have hwarnings : (report context f j).2.diagnostics.warnings = j.diagnostics.warnings := by
    change Diagnostics.warnings (j.diagnostics ++ [f.diagnostic context]) = _
    simp [Diagnostics.warnings, Finding.diagnostic, hf]
  change List.Forall₂ Tells _ j.alerts
  rwa [hwarnings]

/-- A recovery adds a warning on either side. Only between its two steps is the log ahead. -/
theorem keepsStep_recovery {message : String} {fields : List (String × FieldValue)}
    {context : String} {f : Finding} (hf : f.severity = .warning)
    (htells : Tells (f.diagnostic context) ⟨.warn, message, fields⟩) :
    KeepsStep (do warn message fields; report context f) := by
  intro j h
  have hwarnings : Diagnostics.warnings [f.diagnostic context] = [f.diagnostic context] :=
    List.filter_cons_of_pos (decide_eq_true hf)
  change List.Forall₂ Tells (Diagnostics.warnings (j.diagnostics ++ [f.diagnostic context]))
    (Journal.alerts (j ++ ⟨[], [⟨.warn, message, fields⟩]⟩))
  rw [Diagnostics.warnings_append, Journal.alerts_append, hwarnings]
  exact List.rel_append h (.cons htells .nil)

end Steps

/-! ## Actions -/

namespace Action

private theorem keepsStep_recordVariable (path : String) (answer : Option String) :
    KeepsStep (recordVariable path answer) := by
  cases answer with
  | none => exact keepsStep_pure ()
  | some name => exact keepsStep_unless _ (keepsStep_recovery rfl (.invalidVariable name path))

private theorem keepsStep_recordEntity (path : String) (entity : Option String) :
    KeepsStep (recordEntity path entity) := by
  cases entity with
  | none => exact keepsStep_pure ()
  | some tag => exact keepsStep_unless _ (keepsStep_recovery rfl (.unknownEntity tag path))

private theorem keepsStep_recordFaults (path : String) (a : Action) :
    KeepsStep (a.recordFaults path) := by
  cases a with
  | unrecognized kind body => exact keepsStep_recovery rfl (.unknownAction kind path)
  | malformed kind body reason =>
    exact keepsStep_recovery rfl (.malformedAction kind reason.message path)
  | question prompt answer entity =>
    exact (keepsStep_recordVariable path answer).bind fun _ => keepsStep_recordEntity path entity
  | setVariable name value => exact keepsStep_recordVariable path (some name)
  | _ => exact keepsStep_pure ()

private theorem keepsStep_recordOwn (path : String) (a : Action) : KeepsStep (a.recordOwn path) :=
  (keepsStep_when _ (keepsStep_progress _)).bind fun _ => keepsStep_recordFaults path a

mutual

private theorem keepsStep_record (path : String) (a : Action) : KeepsStep (a.record path) := by
  cases a with
  | condition branches otherwise =>
    cases otherwise with
    | none =>
      exact (keepsStep_recordOwn path _).bind fun _ => keepsStep_recordBranches path 0 branches
    | some otherwise =>
      exact (keepsStep_recordOwn path _).bind fun _ =>
        (keepsStep_recordBranches path 0 branches).bind fun _ =>
          keepsStep_recordList (elsePath path) 0 otherwise
  | _ => exact keepsStep_recordOwn path _

private theorem keepsStep_recordBranches (path : String) (index : Nat)
    (branches : List (Branch Action)) :
    KeepsStep (recordBranches path index branches) := by
  cases branches with
  | nil => exact keepsStep_pure ()
  | cons branch rest =>
    obtain ⟨condition, actions⟩ := branch
    exact (keepsStep_recordList (branchPath path index) 0 actions).bind fun _ =>
      keepsStep_recordBranches path (index + 1) rest

private theorem keepsStep_recordList (path : String) (index : Nat) (l : List Action) :
    KeepsStep (recordList path index l) := by
  cases l with
  | nil => exact keepsStep_pure ()
  | cons a rest =>
    exact (keepsStep_record (elementPath path index) a).bind fun _ =>
      keepsStep_recordList path (index + 1) rest

end
end Action

private theorem Topic.keepsStep_record (publisher : String) (t : Topic) :
    KeepsStep (t.record publisher) :=
  (Action.keepsStep_recordList _ 0 t.actionList).bind fun _ => keepsStep_progress _

/-! ## Nodes -/

namespace Node

private theorem keepsStep_inspectReach (path : String) (ended : Option Nat) (n : Node) :
    KeepsStep (inspectReach path ended n) := by
  cases ended with
  | none => exact keepsStep_pure ()
  | some ending => exact keepsStep_remark path rfl

mutual

private theorem keepsStep_inspect (known : List String) (path : String) (n : Node) :
    KeepsStep (inspect known path n) := by
  cases n with
  | beginDialog id dialog =>
    exact keepsStep_unless _ (keepsStep_recovery rfl (.unresolvedTopic dialog path))
  | conditionGroup id items otherwise =>
    exact (keepsStep_inspectItems known path 0 items).bind fun _ =>
      keepsStep_inspectList known (elsePath path) 0 none otherwise
  | _ => exact keepsStep_pure ()

private theorem keepsStep_inspectItems (known : List String) (path : String) (index : Nat)
    (items : List (ConditionItem Node)) : KeepsStep (inspectItems known path index items) := by
  cases items with
  | nil => exact keepsStep_pure ()
  | cons item rest =>
    obtain ⟨id, condition, actions⟩ := item
    exact (keepsStep_inspectList known (branchPath path index) 0 none actions).bind fun _ =>
      keepsStep_inspectItems known path (index + 1) rest

private theorem keepsStep_inspectList (known : List String) (path : String) (index : Nat)
    (ended : Option Nat) (ns : List Node) :
    KeepsStep (inspectList known path index ended ns) := by
  cases ns with
  | nil => exact keepsStep_pure ()
  | cons n rest =>
    -- the node itself may be behind an end, which is no warning, and then what is inside it counts
    exact (keepsStep_inspectReach (elementPath path index) ended n).bind fun _ =>
      (keepsStep_inspect known (elementPath path index) n).bind fun _ =>
        keepsStep_inspectList known path (index + 1) _ rest

end
end Node

private theorem Dialog.keepsStep_inspect (known : List String) (d : Dialog) :
    KeepsStep (d.inspect known) :=
  Node.keepsStep_inspectList known _ 0 none d.trigger.actions

private theorem BotDocument.keepsStep_inspect (d : BotDocument) : KeepsStep d.inspect :=
  keepsStep_forM (Dialog.keepsStep_inspect d.schemaNames) d.dialogs

/-! ## Compilations -/

namespace Agent

private theorem keepsStep_recordLanguage (agent : Agent) : KeepsStep agent.recordLanguage := by
  rw [recordLanguage]
  cases agent.language with
  | none => exact keepsStep_pure ()
  | some tag => exact keepsStep_unless _ (keepsStep_recovery rfl (.unknownLocale tag _))

private theorem keepsStep_recordCloud (options : Options) (agent : Agent) :
    KeepsStep (agent.recordCloud options) :=
  keepsStep_unless _ (keepsStep_recovery rfl (.unknownCloud (agent.cloudTag options) _))

private theorem keepsStep_recordAssembly (options : Options) (agent : Agent) (name : String)
    (topics : List Topic) : KeepsStep (agent.recordAssembly options name topics) :=
  agent.keepsStep_recordLanguage.bind fun _ => (agent.keepsStep_recordCloud options).bind fun _ =>
    (keepsStep_progress _).bind fun _ =>
      keepsStep_forM (Topic.keepsStep_record options.publisher) topics

private theorem keepsStep_conclude (options : Options) (agent : Agent) (name : String)
    (document : BotDocument) : KeepsStep (agent.conclude options name document) :=
  (keepsStep_when _ document.keepsStep_inspect).bind fun _ => keepsStep_get.bind fun _ =>
    (keepsStep_progress _).bind fun _ => keepsStep_pure _

/-- However a compilation ends, its log and its diagnostics are in step. -/
theorem inStep_compile {σ : Type} [IdSource σ] (options : Options) (agent : Agent) (s : σ) :
    (agent.compile options s).journal.InStep := by
  cases hname : agent.checkName options with
  | error e =>
    rw [compile_of_checkName_error options agent s e hname]
    exact .nil
  | ok name =>
    -- a failure leaves what was recorded before it, and that is in step
    have hrecorded : (written (agent.recordAssembly options name agent.usableTopics)).InStep :=
      agent.keepsStep_recordAssembly options name agent.usableTopics .empty .nil
    rw [compile_of_checkName options agent s name hname]
    dsimp only
    split
    · exact hrecorded
    · split
      · exact hrecorded
      · exact agent.keepsStep_conclude options name _ _ hrecorded

end Agent
end Botwright
