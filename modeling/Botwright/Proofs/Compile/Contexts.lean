import Botwright.Proofs.Compile.Diagnostics
import Botwright.Proofs.Compile.Visits

/-!
# The contexts of diagnostics

The text under which something is found tells its place in the document, whatever the names of
topics look like. An action and the node it becomes stand at one place, so what the compilation
reports and what the check finds come under one text.
-/

namespace Botwright

open Recording

/-- The node at a place is that of the action there. -/
structure Mirrors (σ : Type) [IdSource σ] (publisher : String) (a : Located) (x : Visit) :
    Prop where
  way : x.way = a.way
  index : x.index = a.index
  compiles : Action.Compiles σ publisher a.action x.node

namespace Mirrors

variable {σ : Type} [IdSource σ] {publisher : String}

theorem path_eq {a : Located} {x : Visit} (h : Mirrors σ publisher a x) (path : String) :
    x.path path = a.path path := by
  rw [Visit.path, Located.path, h.way, h.index]

theorem under {a : Located} {x : Visit} (h : Mirrors σ publisher a x) (d : Descent) :
    Mirrors σ publisher (a.under d) (x.under d) :=
  ⟨congrArg (List.cons d) h.way, h.index, h.compiles⟩

private theorem map_under {as : List Located} {xs : List Visit}
    (h : List.Forall₂ (Mirrors σ publisher) as xs) (d : Descent) :
    List.Forall₂ (Mirrors σ publisher) (as.map (.under d)) (xs.map (.under d)) := by
  rw [List.forall₂_map_left_iff, List.forall₂_map_right_iff]
  exact h.imp fun _ _ hax => hax.under d

end Mirrors

namespace Action

variable {σ : Type} [IdSource σ] (publisher : String)

mutual

private theorem mirrors_inside (index : Nat) : ∀ (a : Action) (s : σ),
    List.Forall₂ (Mirrors σ publisher) (a.inside index)
      (Node.visitsBelow index (node publisher a s).1)
  | message _, _ => .nil
  | question .., _ => .nil
  | condition branches none, s => by
      have hbranches := mirrors_insideBranches index 0 branches (IdSource.token s).2
      rw [inside, ← List.append_nil (insideBranches index 0 branches)]
      exact List.rel_append hbranches .nil
  | condition branches (some otherwise), s => by
      have hbranches := mirrors_insideBranches index 0 branches (IdSource.token s).2
      have hotherwise := mirrors_located otherwise
        (conditionItems publisher branches (IdSource.token s).2).2 []
      exact List.rel_append hbranches (Mirrors.map_under hotherwise ⟨index, .otherwise⟩)
  | setVariable .., _ => .nil
  | callTopic _, _ => .nil
  | callConnector .., _ => .nil
  | callFlow .., _ => .nil
  | generativeAnswer, _ => .nil
  | endConversation, _ => .nil
  | escalate, _ => .nil
  | unrecognized .., _ => .nil
  | malformed .., _ => .nil

private theorem mirrors_insideBranches (index place : Nat) :
    ∀ (branches : List (Branch Action)) (s : σ),
    List.Forall₂ (Mirrors σ publisher) (insideBranches index place branches)
      (Node.visitsOfItems index place (conditionItems publisher branches s).1)
  | [], _ => .nil
  | ⟨_, actions⟩ :: rest, s => by
      have hactions := mirrors_located actions (IdSource.token s).2 []
      have hrest := mirrors_insideBranches index (place + 1) rest
        (nodes publisher actions (IdSource.token s).2).2
      exact List.rel_append (Mirrors.map_under hactions ⟨index, .branch place⟩) hrest

private theorem mirrors_located : ∀ (actions : List Action) (s : σ) (before : List Node),
    List.Forall₂ (Mirrors σ publisher) (located before.length actions)
      (Node.visits before (nodes publisher actions s).1)
  | [], _, _ => .nil
  | a :: rest, s, before => by
      have hinside := mirrors_inside before.length a s
      have hrest := mirrors_located rest (node publisher a s).2
        (before ++ [(node publisher a s).1])
      rw [List.length_append, List.length_singleton] at hrest
      exact List.rel_append (.cons ⟨rfl, rfl, s, rfl⟩ hinside) hrest

end
end Action

/-- What is recorded about the actions of a topic and what is found about the nodes of its dialog
comes under the text of one place, for every action and its node. -/
structure Topic.Addressed (σ : Type) [IdSource σ] (publisher : String) (t : Topic) (d : Dialog) :
    Prop where
  recorded : t.record publisher = (do
    forM (Action.located 0 t.actionList) (Located.record (topicPath t.name))
    progress (.compiledTopic t.name (Naming.topic publisher t.name) t.phrases.length
      t.actionList.length))
  warned : (written (t.record publisher)).diagnostics =
    (Action.located 0 t.actionList).flatMap (Located.warnings (topicPath t.name))
  checked : ∀ known, d.inspect known = forM (d.check known) PlacedFinding.record
  findings : ∀ known, d.check known = (Node.visits [] d.trigger.actions).flatMap
    (Visit.findings known (topicPath d.displayName))
  places : List.Forall₂ (fun a x => Mirrors σ publisher a x ∧
      x.path (topicPath d.displayName) = a.path (topicPath t.name))
    (Action.located 0 t.actionList) (Node.visits [] d.trigger.actions)

private theorem Topic.Addressed.map_path {σ : Type} [IdSource σ] {publisher : String} {t : Topic}
    {d : Dialog} (h : Topic.Addressed σ publisher t d) :
    (Node.visits [] d.trigger.actions).map (Visit.path (topicPath d.displayName)) =
      (Action.located 0 t.actionList).map (Located.path (topicPath t.name)) := by
  have hpaths : List.Forall₂ (· = ·)
      ((Action.located 0 t.actionList).map (Located.path (topicPath t.name)))
      ((Node.visits [] d.trigger.actions).map (Visit.path (topicPath d.displayName))) := by
    rw [List.forall₂_map_left_iff, List.forall₂_map_right_iff]
    exact h.places.imp fun _ _ hax => hax.2.symm
  rw [List.forall₂_eq_eq_eq] at hpaths
  exact hpaths.symm

namespace Agent

variable {σ : Type} [IdSource σ]

theorem addressed_dialogs (publisher : String) (botId : Uuid) (topics : List Topic) (s : σ) :
    List.Forall₂ (Topic.Addressed σ publisher) topics (dialogs publisher botId topics s).1 := by
  induction topics generalizing s with
  | nil => exact .nil
  | cons t topics ih =>
    have hmirrors := Action.mirrors_located publisher t.actionList s []
    exact .cons ⟨t.record_eq publisher, t.diagnostics_record publisher,
      fun known => Dialog.inspect_eq known _,
      fun known => Node.checkList_eq_visits known _ _,
      hmirrors.imp fun a x h => ⟨h, h.path_eq _⟩⟩ (ih _)

/-- What is recorded about the topics stands together, and behind it what is recorded in the check
of the document. -/
theorem journal_of_compile {options : Options} {agent : Agent} {s : σ} {r : Compilation}
    (h : (agent.compile options s).result = .ok r) :
    ∃ front back, (agent.compile options s).journal =
      front ++ written (forM agent.topicList (Topic.record options.publisher)) ++
        (if options.checkReferences then written r.document.inspect else .empty) ++ back := by
  obtain ⟨name, ending, hjournal, _⟩ := compile_journal options agent s r h
  have hcheck : written (finalCheck options r.document) =
      if options.checkReferences then written r.document.inspect else .empty := by
    rw [finalCheck]
    split <;> rfl
  rw [written_recordAssembly, hcheck] at hjournal
  simp only [← Journal.append_assoc] at hjournal
  exact ⟨_, _, hjournal⟩

/-- The text under which a document is checked tells the dialog, the way and the position, and is
the text under which the actions of a topic are recorded. -/
theorem compile_contexts (options : Options) (agent : Agent) (s : σ) (r : Compilation)
    (h : (agent.compile options s).result = .ok r) :
    (∀ (j k : Nat) (d e : Dialog), r.document.dialogs[j]? = some d →
      r.document.dialogs[k]? = some e →
      ∀ way way' index index', placePath (topicPath d.displayName) way index =
        placePath (topicPath e.displayName) way' index' →
          j = k ∧ way = way' ∧ index = index') ∧
    (∃ front back, (agent.compile options s).journal =
      front ++ written (forM agent.topicList (Topic.record options.publisher)) ++
        (if options.checkReferences then written r.document.inspect else .empty) ++ back) ∧
    ∃ system user, r.document.dialogs = system ++ user ∧
      system.map Dialog.displayName = SystemTopics.titles ∧
      List.Forall₂ (Topic.Addressed σ options.publisher) agent.topicList user := by
  refine ⟨?_, journal_of_compile h, ?_⟩
  · intro j k d e hd he way way' index index' hpath
    obtain ⟨hname, hway, hindex⟩ := placePath_topicPath_inj hpath
    -- the names that dialogs show are distinct, since their schema names are
    have hnames := nodup_displayNames h
    have hj : (r.document.dialogs.map Dialog.displayName)[j]? = some d.displayName := by
      simp [hd]
    have hk : (r.document.dialogs.map Dialog.displayName)[k]? = some e.displayName := by
      simp [he]
    rw [← hname, ← hj] at hk
    obtain ⟨hlt, -⟩ := List.getElem?_eq_some_iff.mp hj
    exact ⟨(List.getElem?_inj hlt hnames).mp hk.symm, hway, hindex⟩
  · obtain ⟨name, _, hdocument, _⟩ := compile_document options agent s r h
    let system := SystemTopics.all options.publisher (IdSource.uuid s).1 name agent
      (IdSource.uuid (IdSource.uuid s).2).2
    refine ⟨system.1, (dialogs options.publisher (IdSource.uuid s).1 agent.topicList system.2).1,
      ?_, rfl, addressed_dialogs _ _ _ _⟩
    rw [hdocument, assemble_dialogs]
    rfl

/-- Two topics of which one is called like a place inside the other. -/
def quoting : Agent := { empty with
  name := some "Desk"
  topics := some [
    ⟨"Cut", none, none, some [
      .condition [⟨"=true", [.endConversation, .setVariable "!" .null]⟩] (some [.callTopic "?"])]⟩,
    ⟨"Cut' > actions[0].conditions[0].then", none, none, some [.message "Bye.", .escalate]⟩] }

theorem quoting_acceptable : quoting.Acceptable {} where
  identified := ⟨⟨"Desk", rfl, by decide⟩, (Naming.isPublisher_iff _).mp (by decide)⟩
  usable := by decide
  distinct := by decide
  reserved := by decide

/-- Behind the system topics the two dialogs come under the texts of their actions, and no text of
one is a text of the other. -/
theorem quoting_contexts :
    ∃ r d e, (quoting.compile {} SequentialIds.fresh).result = .ok r ∧
      r.document.dialogs[7]? = some d ∧ r.document.dialogs[8]? = some e ∧
      (Node.visits [] d.trigger.actions).map (Visit.path (topicPath d.displayName)) =
        ["topic 'Cut' > actions[0]", "topic 'Cut' > actions[0].conditions[0].then[0]",
          "topic 'Cut' > actions[0].conditions[0].then[1]", "topic 'Cut' > actions[0].else[0]"] ∧
      ∀ way way' index index', placePath (topicPath d.displayName) way index ≠
        placePath (topicPath e.displayName) way' index' := by
  obtain ⟨r, h⟩ := compile_of_acceptable SequentialIds.fresh {} quoting quoting_acceptable
  obtain ⟨hdistinct, -, system, user, hdialogs, htitles, htopics⟩ :=
    compile_contexts {} quoting SequentialIds.fresh r h
  have hlength : system.length = 7 := by
    rw [← List.length_map Dialog.displayName, htitles]
    rfl
  cases htopics with
  | @cons _ d _ user hd htopics =>
    cases htopics with
    | @cons _ e _ user he _ =>
      have hseven : r.document.dialogs[7]? = some d := by
        simp [hdialogs, hlength]
      have height : r.document.dialogs[8]? = some e := by
        rw [hdialogs, List.getElem?_append_right (by omega), hlength]
        rfl
      refine ⟨r, d, e, h, hseven, height, hd.map_path.trans (by decide), ?_⟩
      intro way way' index index' hpath
      obtain ⟨heq, -⟩ := hdistinct 7 8 d e hseven height _ _ _ _ hpath
      cases heq

end Agent
end Botwright
