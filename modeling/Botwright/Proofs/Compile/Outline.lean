import Botwright.Proofs.Compile.Findings
import Botwright.Proofs.Compile.Irrelevance

/-!
# The outline of an agent

What an action becomes is told by the action and the publisher alone, up to the tokens of ids. So a
document can be read off its specification: the instructions, the system topics, and one dialog for
every topic of the author, with a node for every action at every depth.
-/

namespace Botwright

namespace Action

mutual

/-- The node of an action, with no tokens in its ids. -/
def outline (publisher : String) : Action → Node
  | message text => .sendActivity (idOf (some "sendMessage") "") none (.text text)
  | question prompt answer entity =>
      .question (idOf (some "question") "") (Naming.topicVariable (resolveVariable answer)) prompt
        (resolveEntity entity)
  | condition branches otherwise =>
      .conditionGroup (idOf (some "conditionGroup") "") (outlineItems publisher branches)
        (outlineOtherwise publisher otherwise)
  | setVariable name value =>
      .setVariable (idOf (some "setVariable") "")
        (Naming.topicVariable (resolveVariable (some name))) value
  | callTopic topic => .beginDialog (idOf none "") (Naming.topic publisher topic)
  | callConnector connector operation inputs =>
      .invokeConnector (idOf (some "connector") "") connector operation inputs
  | callFlow flow inputs => .invokeFlow (idOf (some "flow") "") flow inputs
  | generativeAnswer => .searchAndSummarize (idOf (some "search") "") currentTurn answerVariable
  | endConversation => .endConversation (idOf (some "endConversation") "")
  | escalate => .beginDialog (idOf none "") (Naming.topic publisher "Escalate")
  | unrecognized kind _ =>
      .sendActivity (idOf (some "sendMessage") "") none (.text ("[Unknown action: " ++ kind ++ "]"))
  | malformed kind _ _ =>
      .sendActivity (idOf (some "sendMessage") "") none
        (.text ("[Malformed action: " ++ kind ++ "]"))

def outlineItems (publisher : String) : List (Branch Action) → List (ConditionItem Node)
  | [] => []
  | ⟨predicate, actions⟩ :: rest =>
      ⟨idOf Node.itemStem "", predicate, outlineList publisher actions⟩ ::
        outlineItems publisher rest

def outlineOtherwise (publisher : String) : Option (List Action) → List Node
  | none => []
  | some actions => outlineList publisher actions

def outlineList (publisher : String) : List Action → List Node
  | [] => []
  | a :: rest => outline publisher a :: outlineList publisher rest

end

section Outline

variable (publisher : String)

@[simp] theorem outlineList_eq_map (actions : List Action) :
    outlineList publisher actions = actions.map (outline publisher) := by
  induction actions with
  | nil => rfl
  | cons a rest ih => exact congrArg (List.cons _) ih

/-- A condition becomes a group with one item for each branch, in order. -/
theorem outline_condition (branches : List (Branch Action)) (otherwise : Option (List Action)) :
    outline publisher (condition branches otherwise) =
      .conditionGroup (idOf (some "conditionGroup") "")
        (branches.map fun b =>
          ⟨idOf Node.itemStem "", b.condition, b.actions.map (outline publisher)⟩)
        ((otherwise.getD []).map (outline publisher)) := by
  have hitems : outlineItems publisher branches = branches.map fun b =>
      ⟨idOf Node.itemStem "", b.condition, b.actions.map (outline publisher)⟩ := by
    induction branches with
    | nil => rfl
    | cons b rest ih => simp [outlineItems, ih]
  rw [outline, hitems]
  cases otherwise with
  | none => rfl
  | some actions => simp [outlineOtherwise]

end Outline

section Nodes

variable {σ : Type} [IdSource σ] (publisher : String)

mutual

/-- A source of empty tokens gives the outline. -/
theorem node_outline : ∀ (a : Action) (b : BlankIds), (node publisher a b).1 = outline publisher a
  | message _, _ => rfl
  | question .., _ => rfl
  | condition branches none, b =>
      congrArg (Node.conditionGroup _ · _) (conditionItems_outline branches b)
  | condition branches (some otherwise), b =>
      congr_arg₂ (Node.conditionGroup _ · ·) (conditionItems_outline branches b)
        (nodes_outline otherwise b)
  | setVariable .., _ => rfl
  | callTopic _, _ => rfl
  | callConnector .., _ => rfl
  | callFlow .., _ => rfl
  | generativeAnswer, _ => rfl
  | endConversation, _ => rfl
  | escalate, _ => rfl
  | unrecognized .., _ => rfl
  | malformed .., _ => rfl

private theorem conditionItems_outline : ∀ (branches : List (Branch Action)) (b : BlankIds),
    (conditionItems publisher branches b).1 = outlineItems publisher branches
  | [], _ => rfl
  | ⟨predicate, actions⟩ :: rest, b =>
      congr_arg₂ List.cons (congrArg (ConditionItem.mk _ predicate) (nodes_outline actions b))
        (conditionItems_outline rest b)

private theorem nodes_outline : ∀ (actions : List Action) (b : BlankIds),
    (nodes publisher actions b).1 = outlineList publisher actions
  | [], _ => rfl
  | a :: rest, b => congr_arg₂ List.cons (node_outline a b) (nodes_outline rest b)

end

variable {publisher}

theorem Compiles.blank_eq {a : Action} {n : Node} (h : Compiles σ publisher a n) :
    n.blank = a.outline publisher := by
  obtain ⟨s, rfl⟩ := h
  rw [node_blank publisher BlankIds.mk, node_outline]

/-- In every list of nodes stands one node for each action of the list it comes from, in the same
order. -/
structure Translated (publisher : String) (actions : List Action) (ns : List Node) : Prop where
  length : ∀ way, (descend Node.inner way ns).length = (descend inner way actions).length
  outline : ∀ way, (descend Node.inner way ns).map Node.blank =
    (descend inner way actions).map (outline publisher)

private theorem translated_nodes (actions : List Action) (s : σ) :
    Translated publisher actions (nodes publisher actions s).1 := by
  have hmirror (way : List Descent) : List.Forall₂ (Compiles σ publisher)
      (descend inner way actions) (descend Node.inner way (nodes publisher actions s).1) :=
    forall₂_descend inner (fun _ _ h => h.inner) (forall₂_nodes publisher actions s) way
  constructor
  · intro way
    exact (hmirror way).length_eq.symm
  · intro way
    have houtline : List.Forall₂ (· = ·) ((descend inner way actions).map (outline publisher))
        ((descend Node.inner way (nodes publisher actions s).1).map Node.blank) := by
      rw [List.forall₂_map_left_iff, List.forall₂_map_right_iff]
      exact (hmirror way).imp fun _ _ h => h.blank_eq.symm
    rw [List.forall₂_eq_eq_eq] at houtline
    exact houtline.symm

end Nodes
end Action

/-- The dialog of a topic starts on the phrases of the topic and translates its actions. -/
structure Topic.Mirrored (publisher : String) (t : Topic) (d : Dialog) : Prop where
  displayName : d.displayName = t.name
  description : d.description = t.description.getD ""
  schemaName : d.schemaName = Naming.topic publisher t.name
  kind : d.trigger.kind = .onRecognizedIntent
  phrases : d.trigger.intent.map Intent.queries = some t.phrases
  actions : Action.Translated publisher t.actionList d.trigger.actions

namespace Agent

variable {σ : Type} [IdSource σ]

private theorem mirrored_dialogs (publisher : String) (botId : Uuid) (topics : List Topic) (s : σ) :
    List.Forall₂ (Topic.Mirrored publisher) topics (dialogs publisher botId topics s).1 := by
  induction topics generalizing s with
  | nil => exact .nil
  | cons t topics ih =>
    exact .cons ⟨rfl, rfl, rfl, rfl, rfl, Action.translated_nodes t.actionList s⟩ (ih _)

/-- The components of a compiled document are the instructions, if the agent has any, the system
topics, and then a dialog for every topic of the author, in order. Any list of actions becomes as
many nodes, each of them the outline of its action but for the tokens of ids, and so does every
list inside it. -/
theorem compile_mirrors (options : Options) (agent : Agent) (s : σ) :
    (∀ r, (agent.compile options s).result = .ok r →
      ∃ (name : String) (system user : List Dialog), agent.name = some name ∧
        r.document.components =
          (agent.instructions.map fun text => Component.instructions
            (instructionsComponent options.publisher name r.document.entity.botId text)).toList ++
          system.map .dialog ++ user.map .dialog ∧
        system.map Dialog.schemaName = SystemTopics.stems.map (Naming.topic options.publisher) ∧
        system.map Dialog.displayName = SystemTopics.titles ∧
        List.Forall₂ (Topic.Mirrored options.publisher) agent.topicList user) ∧
      ∀ (publisher : String) (actions : List Action) (t : σ),
        Action.Translated publisher actions (Action.nodes publisher actions t).1 := by
  refine ⟨?_, fun publisher actions t => Action.translated_nodes actions t⟩
  intro r h
  obtain ⟨name, hname, hdocument, _⟩ := compile_document options agent s r h
  have hsource := ((checkName_eq_ok options agent name).mp hname).1
  let system := SystemTopics.all options.publisher (IdSource.uuid s).1 name agent
    (IdSource.uuid (IdSource.uuid s).2).2
  let user := dialogs options.publisher (IdSource.uuid s).1 agent.topicList system.2
  refine ⟨name, system.1, user.1, hsource, ?_, rfl, rfl, mirrored_dialogs _ _ _ _⟩
  rw [hdocument, assemble_eq, assembledDialogs, List.map_append, List.append_assoc]
  rfl

/-- Behind the instructions and the system topics of the desk stands the dialog of its first topic,
with all that follows the end of the conversation. -/
theorem closing_mirrors :
    ∃ r d, (closing.compile {} SequentialIds.fresh).result = .ok r ∧
      r.document.components[8]? = some (.dialog d) ∧ d.displayName = "Closing" ∧
      d.trigger.actions.map Node.blank =
        [.conditionGroup "conditionGroup_"
          [⟨"conditionItem_", "=Topic.Open", [.beginDialog "" "af_topic_",
            .beginDialog "" "af_topic_Opening"]⟩] [],
          .endConversation "endConversation_", .beginDialog "" "af_topic_Escalate",
          .endConversation "endConversation_",
          .searchAndSummarize "search_" "=System.Activity.Text" "Topic.Answer"] := by
  obtain ⟨r, h⟩ := compile_of_acceptable SequentialIds.fresh {} closing closing_acceptable
  obtain ⟨name, system, user, _, hcomponents, hschemaNames, _, htopics⟩ :=
    (compile_mirrors {} closing SequentialIds.fresh).1 r h
  have hlength : (system.map Component.dialog).length = 7 := by
    rw [List.length_map, ← List.length_map Dialog.schemaName, hschemaNames, List.length_map]
    rfl
  have hcall : Naming.topic "af" "?!" = "af_topic_" := by decide
  have hcall' : Naming.topic "af" "Open-ing" = "af_topic_Opening" := by decide
  have hescalate : Naming.topic "af" "Escalate" = "af_topic_Escalate" := by decide
  cases htopics with
  | @cons _ d _ user hd _ =>
    refine ⟨r, d, h, ?_, hd.displayName, (hd.actions.outline []).trans ?_⟩
    · rw [hcomponents, List.getElem?_append_right, List.length_append, hlength]
      · rfl
      · simp [hlength]
    · rw [← hcall, ← hcall', ← hescalate]
      rfl

end Agent
end Botwright
