import Botwright.Proofs.Compile.Contexts
import Botwright.Proofs.Compile.SchemaKeys

/-!
# The names that a compilation emits

What an author writes becomes part of a name through the sanitisers only, so every variable, every
target and every schema name has its form, whatever characters the specification holds. A call that
leaves nothing of a target is found by the check.
-/

namespace Botwright

namespace Naming

/-- A text of ASCII letters and digits. -/
def IsStem (s : String) : Prop := ∀ c ∈ s.toList, isAlphanumeric c = true

/-- A variable of a topic, told by one or more ASCII letters, digits and underscores. -/
def IsTopicVariable (name : String) : Prop :=
  ∃ word, name = "init:Topic." ++ word ∧ word ≠ "" ∧
    ∀ c ∈ word.toList, isAlphanumeric c = true ∨ c = '_'

private theorem isStem_sanitizeSchema (name : String) : IsStem (sanitizeSchema name) :=
  isAlphanumeric_of_mem_sanitizeSchema name

private theorem isTopicVariable_of_isUsable {name : String}
    (h : Action.isUsableVariable name = true) :
    IsTopicVariable (topicVariable (sanitizeVariable name)) := by
  refine ⟨_, rfl, ?_, ?_⟩
  · intro hempty
    rw [Action.isUsableVariable, hempty] at h
    cases h
  · intro c hc
    rw [sanitizeVariable, String.toList_ofList] at hc
    simpa using (List.mem_filter.mp hc).2

private theorem isTopicVariable_resolveVariable (name : Option String) :
    IsTopicVariable (topicVariable (Action.resolveVariable name)) := by
  have hkept : sanitizeVariable Action.defaultVariable = Action.defaultVariable := by decide
  have hdefault : IsTopicVariable (topicVariable Action.defaultVariable) := by
    rw [← hkept]
    exact isTopicVariable_of_isUsable (by decide)
  cases name with
  | none => exact hdefault
  | some name =>
    rw [Action.resolveVariable]
    by_cases h : Action.isUsableVariable name = true
    · rw [if_pos h]
      exact isTopicVariable_of_isUsable h
    · rw [if_neg h]
      exact hdefault

end Naming

namespace Node

/-- The variable that a node sets. -/
def assigned? : Node → Option String
  | question _ answer _ _ => some answer
  | setVariable _ name _ => some name
  | _ => none

def begun? : Node → Option String
  | beginDialog _ dialog => some dialog
  | _ => none

end Node

namespace Action.Compiles

variable {σ : Type} [IdSource σ] {publisher : String} {a : Action} {n : Node}

private theorem isTopicVariable (h : Compiles σ publisher a n) {name : String}
    (hname : n.assigned? = some name) : Naming.IsTopicVariable name := by
  obtain ⟨s, rfl⟩ := h
  cases a with
  | question prompt answer entity =>
    cases hname
    exact Naming.isTopicVariable_resolveVariable answer
  | setVariable own value =>
    cases hname
    exact Naming.isTopicVariable_resolveVariable (some own)
  | condition branches otherwise => cases otherwise <;> cases hname
  | _ => cases hname

private theorem begun?_eq (h : Compiles σ publisher a n) :
    n.begun? = a.target?.map (Naming.topic publisher) := by
  obtain ⟨s, rfl⟩ := h
  cases a with
  | condition branches otherwise => cases otherwise <;> rfl
  | _ => rfl

end Action.Compiles

namespace SystemTopics

variable {σ : Type} [IdSource σ] (publisher : String) (botId : Uuid) (name : String)
  (agent : Agent) (s : σ)

/-- No system topic sets a variable, and only the handover of the fallback begins a dialog. -/
theorem names_all : ∀ d ∈ (all publisher botId name agent s).1,
    ∀ x ∈ Node.visits [] d.trigger.actions, x.node.assigned? = none ∧
      ∀ dialog, x.node.begun? = some dialog → dialog = Naming.topic publisher "Escalate" := by
  let visits := (all publisher botId name agent s).1.flatMap fun d =>
    Node.visits [] d.trigger.actions
  have hassigned : visits.filterMap (·.node.assigned?) = [] := rfl
  have hbegun : visits.filterMap (·.node.begun?) = [Naming.topic publisher "Escalate"] := rfl
  intro d hd x hx
  have hmem : x ∈ visits := List.mem_flatMap.mpr ⟨d, hd, hx⟩
  refine ⟨List.filterMap_eq_nil_iff.mp hassigned x hmem, ?_⟩
  intro dialog hdialog
  have hdialog : dialog ∈ visits.filterMap (·.node.begun?) :=
    List.mem_filterMap.mpr ⟨x, hmem, hdialog⟩
  rw [hbegun] at hdialog
  exact List.mem_singleton.mp hdialog

end SystemTopics

private theorem Topic.Addressed.actionAt {σ : Type} [IdSource σ] {publisher : String}
    {agent : Agent} {t : Topic} {d : Dialog} (h : Topic.Addressed σ publisher t d)
    (ht : t ∈ agent.topicList) :
    ∀ x ∈ Node.visits [] d.trigger.actions, ∃ before a,
      agent.ActionAt (x.path (topicPath d.displayName)) before a ∧
        Action.Compiles σ publisher a x.node := by
  intro x hx
  obtain ⟨y, hy, hmirrors, hpath⟩ := exists_of_forall₂ h.places x hx
  obtain ⟨later, hsplit, hlength⟩ :=
    Agent.split_of_getElem? ((Action.mem_located _ y).mp hy)
  refine ⟨_, y.action, ⟨t, ht, y.way, later, hsplit, ?_⟩, hmirrors.compiles⟩
  rw [hpath, hlength]
  rfl

namespace Agent

variable {σ : Type} [IdSource σ] {options : Options} {agent : Agent} {s : σ} {r : Compilation}

private theorem visited_cases (h : (agent.compile options s).result = .ok r) :
    ∀ d ∈ r.document.dialogs, ∀ x ∈ Node.visits [] d.trigger.actions,
      (x.node.assigned? = none ∧
        ∀ dialog, x.node.begun? = some dialog →
          dialog = Naming.topic options.publisher "Escalate") ∨
      ∃ before a, agent.ActionAt (x.path (topicPath d.displayName)) before a ∧
        Action.Compiles σ options.publisher a x.node := by
  obtain ⟨name, _, hdocument, _⟩ := compile_document options agent s r h
  rw [hdocument, assemble_dialogs, assembledDialogs]
  intro d hd x hx
  rcases List.mem_append.mp hd with hd | hd
  · exact Or.inl (SystemTopics.names_all _ _ _ _ _ d hd x hx)
  · obtain ⟨t, ht, haddressed⟩ := exists_of_forall₂ (addressed_dialogs _ _ _ _) d hd
    exact Or.inr (haddressed.actionAt ht x hx)

private theorem isTopicVariable_of_visited (h : (agent.compile options s).result = .ok r)
    {d : Dialog} (hd : d ∈ r.document.dialogs) {x : Visit}
    (hx : x ∈ Node.visits [] d.trigger.actions) {name : String}
    (hname : x.node.assigned? = some name) : Naming.IsTopicVariable name := by
  rcases visited_cases h d hd x hx with ⟨hnone, -⟩ | ⟨_, _, -, hcompiles⟩
  · rw [hnone] at hname
    cases hname
  · exact hcompiles.isTopicVariable hname

private theorem begun_cases (h : (agent.compile options s).result = .ok r) {d : Dialog}
    (hd : d ∈ r.document.dialogs) {x : Visit} (hx : x ∈ Node.visits [] d.trigger.actions)
    {dialog : String} (hdialog : x.node.begun? = some dialog) :
    dialog = Naming.topic options.publisher "Escalate" ∨
      ∃ before topic, dialog = Naming.topic options.publisher topic ∧
        agent.ActionAt (x.path (topicPath d.displayName)) before (.callTopic topic) := by
  rcases visited_cases h d hd x hx with ⟨-, hbegun⟩ | ⟨before, a, hat, hcompiles⟩
  · exact Or.inl (hbegun dialog hdialog)
  · rw [hcompiles.begun?_eq] at hdialog
    obtain ⟨topic, htarget, rfl⟩ := Option.map_eq_some_iff.mp hdialog
    cases a with
    | callTopic called =>
      cases htarget
      exact Or.inr ⟨before, topic, rfl, hat⟩
    | escalate =>
      cases htarget
      exact Or.inl rfl
    | _ => cases htarget

private theorem stem_of_mem_dialogs (h : (agent.compile options s).result = .ok r) :
    ∀ d ∈ r.document.dialogs, ∃ stem,
      d.schemaName = options.publisher ++ "_topic_" ++ stem ∧ stem ≠ "" ∧ Naming.IsStem stem := by
  have hok := acceptable_of_compile h
  obtain ⟨hnames, hschemaNames⟩ := compile_dialogs options agent s r h
  intro d hd
  refine ⟨_, hschemaNames d hd, ?_, Naming.isStem_sanitizeSchema d.displayName⟩
  have hname := List.mem_map_of_mem (f := Dialog.displayName) hd
  rw [hnames, dialogTitles] at hname
  rcases List.mem_append.mp hname with hname | hname
  · have hstem := List.mem_map_of_mem (f := Naming.sanitizeSchema) hname
    rw [SystemTopics.map_sanitizeSchema_titles] at hstem
    intro hempty
    rw [hempty] at hstem
    exact absurd hstem (by decide)
  · obtain ⟨t, ht, hname⟩ := List.mem_map.mp hname
    rw [← hname]
    exact hok.usable t ht

private theorem reported_of_callTopic (h : (agent.compile options s).result = .ok r)
    (hc : options.checkReferences = true) {path topic : String} {before : List Action}
    (hat : agent.ActionAt path before (.callTopic topic))
    (hbare : Naming.sanitizeSchema topic = "") :
    (Finding.unresolvedTopic (Naming.topic options.publisher topic)).diagnostic path ∈
      r.diagnostics := by
  have hok := acceptable_of_compile h
  have hfound : (path, .unresolvedTopic (Naming.topic options.publisher topic)) ∈
      r.document.check := by
    refine (unresolved_mem_check_iff h _ _).mpr ⟨before, topic, hat, rfl, ?_, ?_⟩
    · rw [hbare]
      decide
    · intro t ht heq
      exact hok.usable t ht (heq.symm.trans hbare)
  obtain ⟨plain, -, -, hdiagnostics⟩ := compile_unchecked h hc
  rw [hdiagnostics]
  exact List.mem_append_right _ (List.mem_map.mpr ⟨_, hfound, rfl⟩)

/-- Every name that is emitted has its form, whatever the specification holds. A target is bare
only for a call of a topic without usable characters, which the check reports. -/
theorem compile_names (options : Options) (agent : Agent) (s : σ) (r : Compilation)
    (h : (agent.compile options s).result = .ok r) :
    (∃ stem, r.document.entity.schemaName = options.publisher ++ "_" ++ stem ∧ stem ≠ "" ∧
      Naming.IsStem stem) ∧
    ∀ d ∈ r.document.dialogs,
      (∃ stem, d.schemaName = options.publisher ++ "_topic_" ++ stem ∧ stem ≠ "" ∧
        Naming.IsStem stem) ∧
      ∀ x ∈ Node.visits [] d.trigger.actions,
        (∀ name, x.node.assigned? = some name → Naming.IsTopicVariable name) ∧
        ∀ dialog, x.node.begun? = some dialog →
          ∃ stem, dialog = options.publisher ++ "_topic_" ++ stem ∧ Naming.IsStem stem ∧
            (stem = "" → ∃ before topic,
              agent.ActionAt (x.path (topicPath d.displayName)) before (.callTopic topic) ∧
              (∀ c ∈ topic.toList, Naming.isAlphanumeric c = false) ∧
              (options.checkReferences = true →
                ⟨.warning, "unresolved-topic-reference", x.path (topicPath d.displayName),
                  "no topic with schema name '" ++ dialog ++ "' exists in this document"⟩ ∈
                    r.diagnostics)) := by
  refine ⟨?_, ?_⟩
  · obtain ⟨name, hname, hdocument, _⟩ := compile_document options agent s r h
    obtain ⟨_, husable, _⟩ := (checkName_eq_ok options agent name).mp hname
    rw [hdocument]
    exact ⟨_, rfl, husable, Naming.isStem_sanitizeSchema name⟩
  · intro d hd
    refine ⟨stem_of_mem_dialogs h d hd, ?_⟩
    intro x hx
    refine ⟨fun name hname => isTopicVariable_of_visited h hd hx hname, ?_⟩
    intro dialog hdialog
    rcases begun_cases h hd hx hdialog with rfl | ⟨before, topic, rfl, hat⟩
    · have hescalate : Naming.sanitizeSchema "Escalate" ≠ "" := by decide
      exact ⟨_, rfl, Naming.isStem_sanitizeSchema _, fun hbare => absurd hbare hescalate⟩
    · refine ⟨_, rfl, Naming.isStem_sanitizeSchema topic, ?_⟩
      intro hbare
      exact ⟨before, topic, hat, (Naming.sanitizeSchema_eq_empty_iff topic).mp hbare,
        fun hc => reported_of_callTopic h hc hat hbare⟩

/-- A variable without a usable character is called otherwise, and a call of nothing is reported
where it stands. -/
theorem quoting_names :
    ∃ r d, (quoting.compile {} SequentialIds.fresh).result = .ok r ∧ d ∈ r.document.dialogs ∧
      (Node.visits [] d.trigger.actions).filterMap (·.node.assigned?) = ["init:Topic.Response"] ∧
      (Node.visits [] d.trigger.actions).filterMap (·.node.begun?) = ["af_topic_"] ∧
      ⟨.warning, "unresolved-topic-reference", "topic 'Cut' > actions[0].else[0]",
        "no topic with schema name 'af_topic_' exists in this document"⟩ ∈ r.diagnostics := by
  obtain ⟨r, h⟩ := compile_of_acceptable SequentialIds.fresh {} quoting quoting_acceptable
  obtain ⟨name, hname, hdocument, _⟩ := compile_document {} quoting SequentialIds.fresh r h
  have hvariable : Naming.topicVariable (Action.resolveVariable (some "!")) =
      "init:Topic.Response" := by decide
  have hbare : Naming.topic "af" "?" = "af_topic_" := by decide
  obtain ⟨d, hd, hpath, id, hassigned, hbegun, hx⟩ : ∃ d ∈ r.document.dialogs,
      d.displayName = "Cut" ∧ ∃ id,
      (Node.visits [] d.trigger.actions).filterMap (·.node.assigned?) =
        [Naming.topicVariable (Action.resolveVariable (some "!"))] ∧
      (Node.visits [] d.trigger.actions).filterMap (·.node.begun?) = [Naming.topic "af" "?"] ∧
      ⟨[⟨0, .otherwise⟩], [], .beginDialog id (Naming.topic "af" "?")⟩ ∈
        Node.visits [] d.trigger.actions := by
    rw [hdocument, assemble_dialogs]
    exact ⟨_, List.mem_of_getElem? (i := 7) rfl, rfl, _, rfl, rfl,
      List.mem_of_getElem? (i := 3) rfl⟩
  rw [hvariable] at hassigned
  rw [hbare] at hbegun hx
  obtain ⟨-, hnames⟩ := compile_names {} quoting SequentialIds.fresh r h
  obtain ⟨stem, hstem, -, hreported⟩ := ((hnames d hd).2 _ hx).2 _ rfl
  have hpublisher : ({} : Options).publisher ++ "_topic_" = "af_topic_" := by decide
  rw [hpublisher] at hstem
  obtain ⟨_, _, _, _, hdiagnostic⟩ := hreported (String.append_eq_left_iff.mp hstem.symm)
  have hplace : placePath (topicPath "Cut") [⟨0, .otherwise⟩] 0 =
      "topic 'Cut' > actions[0].else[0]" := by decide
  have hmessage : "no topic with schema name '" ++ "af_topic_" ++ "' exists in this document" =
      "no topic with schema name 'af_topic_' exists in this document" := by decide
  have hdiagnostic := hdiagnostic rfl
  rw [hpath, hmessage] at hdiagnostic
  refine ⟨r, d, h, hd, hassigned, hbegun, ?_⟩
  rw [← hplace]
  exact hdiagnostic

end Agent
end Botwright
