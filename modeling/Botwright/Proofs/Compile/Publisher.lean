import Botwright.Proofs.Compile.Renaming
import Botwright.Proofs.Compile.Diagnostics

/-!
# Compiling under another publisher

The publisher goes into names and nowhere else, so compiling under another one gives the renamed
document, after the same draws. Whether an agent is accepted, what refers to what and what is found
does not depend on the publisher.
-/

namespace Botwright

namespace SystemTopics

variable {σ : Type} [IdSource σ] (old new name : String) (botId : Uuid) (agent : Agent) (s : σ)

private theorem all_rename : all new botId name agent s =
    ((all old botId name agent s).1.map (Dialog.rename (Naming.rename old new)),
      (all old botId name agent s).2) := by
  unfold all conversationStart greeting fallback escalate goodbye thankYou onError
  simp only [← Naming.rename_topic old new]
  rfl

private theorem targets_all : ∀ d ∈ (all old botId name agent s).1,
    ∀ t ∈ Node.targetsOfList d.trigger.actions, t = Naming.topic old "Escalate" := by
  have htargets : (all old botId name agent s).1.map
      (fun d => Node.targetsOfList d.trigger.actions) =
        [[], [], [Naming.topic old "Escalate"], [], [], [], []] := rfl
  have hall : ∀ ts ∈ [[], [], [Naming.topic old "Escalate"], [], [], [], []],
      ∀ t ∈ ts, t = Naming.topic old "Escalate" := by simp
  intro d hd
  exact hall _ (htargets ▸ List.mem_map_of_mem hd)

end SystemTopics

namespace Action

variable {σ : Type} [IdSource σ] (old new : String)

mutual

/-- Under another publisher an action gives the renamed node and draws the same. -/
theorem node_rename : ∀ (a : Action) (s : σ), node new a s =
    ((node old a s).1.rename (Naming.rename old new), (node old a s).2)
  | message _, _ => rfl
  | question _ _ _, _ => rfl
  | condition branches none, s => by
      have hitems := conditionItems_rename branches (IdSource.token s).2
      exact congrArg (fun r => (Node.conditionGroup _ r.1 [], r.2)) hitems
  | condition branches (some otherwise), s => by
      have hitems := conditionItems_rename branches (IdSource.token s).2
      have hotherwise := nodes_rename otherwise
        (conditionItems old branches (IdSource.token s).2).2
      change (let items := conditionItems new branches (IdSource.token s).2
        let ns := nodes new otherwise items.2
        (Node.conditionGroup _ items.1 ns.1, ns.2)) = _
      dsimp only
      rw [hitems, hotherwise]
      rfl
  | setVariable _ _, _ => rfl
  | callTopic topic, s =>
      congrArg (fun dialog => (Node.beginDialog (IdSource.token s).1 dialog, (IdSource.token s).2))
        (Naming.rename_topic old new topic).symm
  | callConnector _ _ _, _ => rfl
  | callFlow _ _, _ => rfl
  | generativeAnswer, _ => rfl
  | endConversation, _ => rfl
  | escalate, s =>
      congrArg (fun dialog => (Node.beginDialog (IdSource.token s).1 dialog, (IdSource.token s).2))
        (Naming.rename_topic old new "Escalate").symm
  | unrecognized _ _, _ => rfl
  | malformed _ _ _, _ => rfl

private theorem conditionItems_rename : ∀ (branches : List (Branch Action)) (s : σ),
    conditionItems new branches s =
      (Node.renameItems (Naming.rename old new) (conditionItems old branches s).1,
        (conditionItems old branches s).2)
  | [], _ => rfl
  | ⟨predicate, actions⟩ :: rest, s => by
      have hactions := nodes_rename actions (IdSource.token s).2
      have hrest := conditionItems_rename rest (nodes old actions (IdSource.token s).2).2
      change (let ns := nodes new actions (IdSource.token s).2
        let items := conditionItems new rest ns.2
        (ConditionItem.mk _ predicate ns.1 :: items.1, items.2)) = _
      dsimp only
      rw [hactions, hrest]
      rfl

private theorem nodes_rename : ∀ (actions : List Action) (s : σ), nodes new actions s =
    (Node.renameList (Naming.rename old new) (nodes old actions s).1, (nodes old actions s).2)
  | [], _ => rfl
  | a :: rest, s => by
      have ha := node_rename a s
      have hrest := nodes_rename rest (node old a s).2
      change (let n := node new a s
        let ns := nodes new rest n.2
        (n.1 :: ns.1, ns.2)) = _
      dsimp only
      rw [ha, hrest]
      rfl

end

mutual

private theorem targets_node : ∀ (a : Action) (s : σ), ∀ t ∈ (node old a s).1.targets,
    ∃ topic, t = Naming.topic old topic
  | message _, _ => List.forall_mem_nil _
  | question _ _ _, _ => List.forall_mem_nil _
  | condition branches none, s =>
      List.forall_mem_append.mpr
        ⟨targets_conditionItems branches (IdSource.token s).2, List.forall_mem_nil _⟩
  | condition branches (some otherwise), s =>
      List.forall_mem_append.mpr ⟨targets_conditionItems branches (IdSource.token s).2,
        targets_nodes otherwise (conditionItems old branches (IdSource.token s).2).2⟩
  | setVariable _ _, _ => List.forall_mem_nil _
  | callTopic topic, _ => List.forall_mem_singleton.mpr ⟨topic, rfl⟩
  | callConnector _ _ _, _ => List.forall_mem_nil _
  | callFlow _ _, _ => List.forall_mem_nil _
  | generativeAnswer, _ => List.forall_mem_nil _
  | endConversation, _ => List.forall_mem_nil _
  | escalate, _ => List.forall_mem_singleton.mpr ⟨"Escalate", rfl⟩
  | unrecognized _ _, _ => List.forall_mem_nil _
  | malformed _ _ _, _ => List.forall_mem_nil _

private theorem targets_conditionItems : ∀ (branches : List (Branch Action)) (s : σ),
    ∀ t ∈ Node.targetsOfItems (conditionItems old branches s).1,
      ∃ topic, t = Naming.topic old topic
  | [], _ => List.forall_mem_nil _
  | ⟨_, actions⟩ :: rest, s =>
      List.forall_mem_append.mpr ⟨targets_nodes actions (IdSource.token s).2,
        targets_conditionItems rest (nodes old actions (IdSource.token s).2).2⟩

private theorem targets_nodes : ∀ (actions : List Action) (s : σ),
    ∀ t ∈ Node.targetsOfList (nodes old actions s).1, ∃ topic, t = Naming.topic old topic
  | [], _ => List.forall_mem_nil _
  | a :: rest, s =>
      List.forall_mem_append.mpr ⟨targets_node a s, targets_nodes rest (node old a s).2⟩

end
end Action

def Failure.rename (f : String → String) : Failure → Failure
  | duplicateSchemaName schemaName first second => duplicateSchemaName (f schemaName) first second
  | reason => reason

/-- A diagnostic that differs from another at most in the schema name that its message quotes. -/
structure Diagnostic.Renamed (f : String → String) (d d' : Diagnostic) : Prop where
  severity : d'.severity = d.severity
  code : d'.code = d.code
  context : d'.context = d.context
  message : d'.message = d.message ∨ ∃ schemaName,
    d.message = (Finding.unresolvedTopic schemaName).message ∧
      d'.message = (Finding.unresolvedTopic (f schemaName)).message

namespace Diagnostic.Renamed

variable (f : String → String)

theorem refl (d : Diagnostic) : Renamed f d d := ⟨rfl, rfl, rfl, Or.inl rfl⟩

private theorem of_finding (x : PlacedFinding) :
    Renamed f (x.2.diagnostic x.1) ((x.rename f).2.diagnostic (x.rename f).1) := by
  obtain ⟨path, finding⟩ := x
  cases finding with
  | unresolvedTopic schemaName => exact ⟨rfl, rfl, rfl, Or.inr ⟨schemaName, rfl, rfl⟩⟩
  | _ => exact refl f _

end Diagnostic.Renamed

private theorem Topic.dialog_rename {σ : Type} [IdSource σ] (old new : String) (botId : Uuid)
    (t : Topic) (s : σ) :
    t.dialog new botId s =
      ((t.dialog old botId s).1.rename (Naming.rename old new), (t.dialog old botId s).2) := by
  have hnodes := Action.nodes_rename old new t.actionList s
  unfold Topic.dialog
  rw [← Naming.rename_topic old new t.name]
  change (let ns := Action.nodes new t.actionList s
    (Dialog.ofTrigger botId t.name (t.description.getD "") _ none
      (.onPhrases .onRecognizedIntent t.name t.phrases ns.1), ns.2)) = _
  dsimp only
  rw [hnodes]
  rfl

namespace Agent

variable {σ : Type} [IdSource σ]

theorem dialogs_rename (old new : String) (botId : Uuid) (topics : List Topic) (s : σ) :
    dialogs new botId topics s =
      ((dialogs old botId topics s).1.map (Dialog.rename (Naming.rename old new)),
        (dialogs old botId topics s).2) := by
  induction topics generalizing s with
  | nil => rfl
  | cons t topics ih =>
    have hdialog := t.dialog_rename old new botId s
    change (let d := t.dialog new botId s
      let ds := dialogs new botId topics d.2
      (d.1 :: ds.1, ds.2)) = _
    dsimp only
    rw [hdialog, ih]
    rfl

variable (options : Options) (agent : Agent) (other name : String) (topics : List Topic) (s : σ)

/-- Assembling under another publisher gives the renamed document after the same draws. -/
theorem assemble_rename :
    agent.assemble { options with publisher := other } name topics s =
      ((agent.assemble options name topics s).1.rename (Naming.rename options.publisher other),
        (agent.assemble options name topics s).2) := by
  have hsystem (s' : σ) (botId : Uuid) :=
    SystemTopics.all_rename options.publisher other name botId agent s'
  have hdialogs : assembledDialogs { options with publisher := other } agent name topics s =
      ((assembledDialogs options agent name topics s).1.map
          (Dialog.rename (Naming.rename options.publisher other)),
        (assembledDialogs options agent name topics s).2) := by
    unfold assembledDialogs
    dsimp only
    rw [hsystem, dialogs_rename options.publisher other, List.map_append]
  have hinstructions : assembledInstructions { options with publisher := other } agent name s =
      (assembledInstructions options agent name s).map
        (Component.rename (Naming.rename options.publisher other)) := by
    unfold assembledInstructions
    cases agent.instructions with
    | none => rfl
    | some text =>
      have hname := Naming.rename_instructions options.publisher other name
      exact congrArg (fun schemaName => [Component.instructions { instructionsComponent
        options.publisher name (IdSource.uuid s).1 text with schemaName := schemaName }]) hname.symm
  rw [assemble_eq, assemble_eq, hdialogs, hinstructions, BotDocument.rename, List.map_append,
    List.map_map, List.map_map]
  simp only [Naming.rename_bot, entity]
  rfl

private theorem targets_dialogs (publisher : String) (botId : Uuid) :
    ∀ d ∈ (dialogs publisher botId topics s).1, ∀ t ∈ Node.targetsOfList d.trigger.actions,
      ∃ topic, t = Naming.topic publisher topic := by
  induction topics generalizing s with
  | nil => exact List.forall_mem_nil _
  | cons t topics ih =>
    exact List.forall_mem_cons.mpr ⟨Action.targets_nodes publisher t.actionList s, ih _⟩

private theorem targets_assembledDialogs :
    ∀ d ∈ (assembledDialogs options agent name topics s).1,
      ∀ t ∈ Node.targetsOfList d.trigger.actions,
        ∃ topic, t = Naming.topic options.publisher topic := by
  refine List.forall_mem_append.mpr ⟨?_, targets_dialogs topics _ options.publisher _⟩
  intro d hd t ht
  exact ⟨"Escalate", SystemTopics.targets_all _ _ _ _ _ d hd t ht⟩

private theorem names_assemble : ∀ schemaName ∈ (agent.assemble options name topics s).1.names,
    Naming.OfPublisher options.publisher schemaName := by
  refine List.forall_mem_cons.mpr ⟨Naming.ofPublisher_bot _ _, ?_⟩
  intro schemaName hm
  obtain ⟨c, hc, hm⟩ := List.mem_flatMap.mp hm
  rw [assemble_eq] at hc
  rcases List.mem_append.mp hc with hc | hc
  · obtain ⟨text, _, rfl⟩ := Option.map_eq_some_iff.mp (Option.mem_toList.mp hc)
    rw [List.mem_singleton.mp hm]
    exact Naming.ofPublisher_instructions _ _
  · obtain ⟨d, hd, rfl⟩ := List.mem_map.mp hc
    rcases List.mem_cons.mp hm with rfl | ht
    · rw [(assembledDialogs_belong options agent name topics s d hd).1]
      exact Naming.ofPublisher_topic _ _
    · obtain ⟨topic, rfl⟩ := targets_assembledDialogs options agent name topics s d hd _ ht
      exact Naming.ofPublisher_topic _ topic

theorem Identified.rename {options : Options} {agent : Agent} (h : agent.Identified options)
    {other : String} (hq : other ≠ "" ∧ ∀ c ∈ other.toList, Naming.isAlphanumeric c = true) :
    agent.Identified { options with publisher := other } :=
  ⟨h.name, hq⟩

theorem Acceptable.rename {options : Options} {agent : Agent} (h : agent.Acceptable options)
    {other : String} (hq : other ≠ "" ∧ ∀ c ∈ other.toList, Naming.isAlphanumeric c = true) :
    agent.Acceptable { options with publisher := other } :=
  ⟨h.identified.rename hq, h.usable, h.distinct, h.reserved⟩

/-- Under another usable publisher an agent is refused for the same reason. -/
theorem Refused.rename {options : Options} {agent : Agent} {e : Failure} {n : Nat}
    (h : agent.Refused options e n)
    (hp : options.publisher ≠ "" ∧ ∀ c ∈ options.publisher.toList, Naming.isAlphanumeric c = true)
    {other : String} (hq : other ≠ "" ∧ ∀ c ∈ other.toList, Naming.isAlphanumeric c = true) :
    agent.Refused { options with publisher := other }
      (e.rename (Naming.rename options.publisher other)) n := by
  cases h with
  | unnamed h => exact .unnamed h
  | unusableName h hu => exact .unusableName h hu
  | publisher h hu hinvalid =>
    rcases hinvalid with hempty | ⟨c, hc, hinvalid⟩
    · exact absurd hempty hp.1
    · rw [hp.2 c hc] at hinvalid
      cases hinvalid
  | topicName hid hsplit hb ht => exact .topicName (hid.rename hq) hsplit hb ht
  | repeatedName hid hu hsplit hd hh hs =>
    rw [Failure.rename, Naming.rename_topic]
    exact .repeatedName (hid.rename hq) hu hsplit hd hh hs

private theorem draws_rename {options : Options} {other : String}
    (hp : options.publisher ≠ "" ∧ ∀ c ∈ options.publisher.toList, Naming.isAlphanumeric c = true)
    (hq : other ≠ "" ∧ ∀ c ∈ other.toList, Naming.isAlphanumeric c = true) (agent : Agent) :
    agent.draws { options with publisher := other } = agent.draws options := by
  have hname : agent.checkName { options with publisher := other } = agent.checkName options := by
    have hvalid := (Naming.isPublisher_iff _).mpr hp
    have hvalid' := (Naming.isPublisher_iff _).mpr hq
    simp only [checkName, Naming.checkPublisher, hvalid, hvalid', if_true]
  rw [draws, hname, draws]

variable {options : Options} {agent : Agent} {other : String} {s : σ} {r r' : Compilation}

private theorem document_rename (h : (agent.compile options s).result = .ok r)
    (h' : (agent.compile { options with publisher := other } s).result = .ok r') :
    r'.document = r.document.rename (Naming.rename options.publisher other) ∧
      r'.cloud = r.cloud ∧
      ∀ name ∈ r.document.names, Naming.OfPublisher options.publisher name := by
  obtain ⟨name, hname, _, _, rfl⟩ := (compile_eq_ok options agent s r).mp h
  obtain ⟨name', hname', _, _, rfl⟩ := (compile_eq_ok _ agent s r').mp h'
  obtain rfl : name = name' := Option.some.inj
    (((checkName_eq_ok options agent name).mp hname).1.symm.trans
      ((checkName_eq_ok _ agent name').mp hname').1)
  refine ⟨?_, rfl, names_assemble options agent name agent.topicList s⟩
  exact congrArg Prod.fst (assemble_rename options agent other name agent.topicList s)

private theorem diagnostics_rename (h : (agent.compile options s).result = .ok r)
    (h' : (agent.compile { options with publisher := other } s).result = .ok r') :
    List.Forall₂ (Diagnostic.Renamed (Naming.rename options.publisher other)) r.diagnostics
      r'.diagnostics := by
  obtain ⟨hdocument, _, hnames⟩ := document_rename h h'
  have hrefl (ds : Diagnostics) : List.Forall₂
      (Diagnostic.Renamed (Naming.rename options.publisher other)) ds ds :=
    List.forall₂_same.mpr fun d _ => .refl _ d
  rw [diagnostics_of_compile h, diagnostics_of_compile h', hdocument,
    BotDocument.check_rename hnames]
  refine List.rel_append (hrefl _) ?_
  dsimp only
  split
  · rw [List.map_map, List.forall₂_map_left_iff, List.forall₂_map_right_iff]
    exact List.forall₂_same.mpr fun x _ => .of_finding _ x
  · exact .nil

/-- Under another usable publisher an agent is refused for the same reason, or compiled to the
renamed document with the same findings, after the same draws. -/
theorem compile_rename_publisher (options : Options) (agent : Agent) (s : σ) (other : String)
    (hp : options.publisher ≠ "" ∧ ∀ c ∈ options.publisher.toList, Naming.isAlphanumeric c = true)
    (hq : other ≠ "" ∧ ∀ c ∈ other.toList, Naming.isAlphanumeric c = true) :
    (agent.compile { options with publisher := other } s).source =
        (agent.compile options s).source ∧
      match (agent.compile options s).result,
        (agent.compile { options with publisher := other } s).result with
      | .ok r, .ok r' =>
          r'.document = r.document.rename (Naming.rename options.publisher other) ∧
          (∀ name ∈ r.document.names, Naming.OfPublisher options.publisher name) ∧
          r'.cloud = r.cloud ∧
          List.Forall₂ (Diagnostic.Renamed (Naming.rename options.publisher other))
            r.diagnostics r'.diagnostics
      | .error e, .error e' => e' = e.rename (Naming.rename options.publisher other)
      | _, _ => False := by
  constructor
  · simp [draws_rename hp hq]
  · rcases acceptable_or_refused options agent with hok | ⟨e, n, hrefused⟩
    · obtain ⟨r, h⟩ := compile_of_acceptable s options agent hok
      obtain ⟨r', h'⟩ := compile_of_acceptable s _ agent (hok.rename hq)
      obtain ⟨hdocument, hcloud, hnames⟩ := document_rename h h'
      rw [h, h']
      exact ⟨hdocument, hnames, hcloud, diagnostics_rename h h'⟩
    · rw [(compile_of_refused s options agent e n hrefused).1,
        (compile_of_refused s _ agent _ n (hrefused.rename hp hq)).1]

/-- A call of nothing stays unresolved under another publisher, and a topic that takes the schema
name of a system topic takes it there as well. -/
theorem closing_rename_publisher :
    (∃ r r', (closing.compile {} SequentialIds.fresh).result = .ok r ∧
      (closing.compile { publisher := "cr1" } SequentialIds.fresh).result = .ok r' ∧
      r'.document = r.document.rename (Naming.rename "af" "cr1") ∧
      List.Forall₂ (Diagnostic.Renamed (Naming.rename "af" "cr1")) r.diagnostics r'.diagnostics) ∧
    (impostor.compile { publisher := "cr1" } SequentialIds.fresh).result =
      .error (.duplicateSchemaName "cr1_topic_Greeting" "Greeting" "Greeting!") := by
  have hp := (Naming.isPublisher_iff "af").mp (by decide)
  have hq := (Naming.isPublisher_iff "cr1").mp (by decide)
  constructor
  · obtain ⟨r, h⟩ := compile_of_acceptable SequentialIds.fresh {} closing closing_acceptable
    obtain ⟨r', h'⟩ := compile_of_acceptable SequentialIds.fresh { publisher := "cr1" } closing
      (closing_acceptable.rename hq)
    have hrenamed := (compile_rename_publisher {} closing SequentialIds.fresh "cr1" hp hq).2
    rw [h, h'] at hrenamed
    exact ⟨r, r', h, h', hrenamed.1, hrenamed.2.2.2⟩
  · have hrenamed := (compile_rename_publisher {} impostor SequentialIds.fresh "cr1" hp hq).2
    rw [(compile_of_refused SequentialIds.fresh {} impostor _ _ impostor_refused).1] at hrenamed
    cases h' : (impostor.compile { publisher := "cr1" } SequentialIds.fresh).result with
    | error e' =>
      rw [h'] at hrenamed
      rw [hrenamed]
      exact congrArg Except.error (by decide)
    | ok r' =>
      rw [h'] at hrenamed
      exact hrenamed.elim

end Agent
end Botwright
