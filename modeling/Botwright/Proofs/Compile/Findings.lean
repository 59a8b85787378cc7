import Botwright.Proofs.Compile.Acceptance
import Botwright.Proofs.Compile.Mirror

/-!
# What the check of a compiled document finds

The check of a document that was compiled is told by the specification. Nothing is found in the
system topics. About an action of the author, a call is found unless it names a system topic or a
topic of the author, and any action behind an end of the conversation in its own list.
-/

namespace Botwright

namespace SystemTopics

variable {σ : Type} [IdSource σ]

private theorem fallback_actions (publisher : String) (botId : Uuid) (agent : Agent) (s : σ) :
    ∃ group item message handover condition activity,
      (fallback publisher botId agent s).1.trigger.actions =
        [.conditionGroup group [⟨item, condition, [.sendActivity message none activity]⟩]
          [.beginDialog handover (Naming.topic publisher "Escalate")]] :=
  ⟨_, _, _, _, _, _, rfl⟩

private theorem fallback_check {publisher : String} {known : List String}
    (h : Naming.topic publisher "Escalate" ∈ known) (botId : Uuid) (agent : Agent) (s : σ) :
    (fallback publisher botId agent s).1.check known = [] := by
  obtain ⟨_, _, _, _, _, _, hactions⟩ := fallback_actions publisher botId agent s
  rw [Dialog.check, hactions]
  simp [Node.checkList, Node.check, Node.checkItems, Node.reachability, h]

private theorem check_all {publisher : String} {known : List String}
    (h : Naming.topic publisher "Escalate" ∈ known) (botId : Uuid) (name : String) (agent : Agent)
    (s : σ) : ∀ d ∈ (all publisher botId name agent s).1, d.check known = [] := by
  have hfallback (s : σ) := fallback_check h botId agent s
  refine List.forall_mem_cons.mpr ⟨rfl, List.forall_mem_cons.mpr ⟨rfl, List.forall_mem_cons.mpr
    ⟨hfallback _, List.forall_mem_cons.mpr ⟨rfl, List.forall_mem_cons.mpr ⟨rfl,
      List.forall_mem_cons.mpr ⟨rfl, List.forall_mem_cons.mpr ⟨rfl, nofun⟩⟩⟩⟩⟩⟩⟩

end SystemTopics

namespace Agent

variable {σ : Type} [IdSource σ]

private theorem mem_check_dialogs (publisher : String) (botId : Uuid) (known : List String)
    (topics : List Topic) (s : σ) (x : PlacedFinding) :
    x ∈ (dialogs publisher botId topics s).1.flatMap (Dialog.check known) ↔
      ∃ t ∈ topics, ∃ way i a, (descend Action.inner way t.actionList)[i]? = some a ∧
        x.1 = placePath (topicPath t.name) way i ∧
        x.2 ∈ a.linkFindings publisher known ((descend Action.inner way t.actionList).take i) := by
  induction topics generalizing s with
  | nil => exact ⟨nofun, nofun⟩
  | cons t topics ih =>
    simp only [List.mem_cons, or_and_right, exists_or, exists_eq_left]
    rw [← ih (t.dialog publisher botId s).2,
      ← Action.mem_checkList_nodes known (topicPath t.name) t.actionList s]
    exact List.mem_append

private theorem topic_mem_schemaNames (options : Options) (agent : Agent) (name : String)
    (topics : List Topic) (s : σ) (topic : String) :
    Naming.topic options.publisher topic ∈ (agent.assemble options name topics s).1.schemaNames ↔
      Naming.sanitizeSchema topic ∈ SystemTopics.stems ∨
        Naming.sanitizeSchema topic ∈ topics.map Topic.stem := by
  have hkeys := congrArg (List.map Prod.fst) (assemble_keys options agent name topics s)
  rw [List.map_map] at hkeys
  have hinstructions : Naming.topic options.publisher topic ∉
      (instructionsKeys options agent name).map Prod.fst := by
    rw [instructionsKeys]
    cases agent.instructions with
    | none => exact List.not_mem_nil
    | some text =>
      intro hm
      exact Naming.instructions_ne_topic _ _ _ (List.mem_singleton.mp hm).symm
  change _ ∈ (agent.assemble options name topics s).1.components.map (Prod.fst ∘ Component.key) ↔ _
  rw [hkeys, List.map_append, List.mem_append, or_iff_right hinstructions, List.map_map,
    ← SystemTopics.map_sanitizeSchema_titles]
  have hstems : topics.map Topic.stem = (topics.map Topic.name).map Naming.sanitizeSchema := by
    rw [List.map_map]
    rfl
  rw [hstems, ← List.mem_append, ← List.map_append]
  change _ ∈ (dialogTitles topics).map (Naming.topic options.publisher) ↔
    _ ∈ (dialogTitles topics).map Naming.sanitizeSchema
  simp

/-- The action at a place of an agent, told by its text, behind others in its list. -/
def ActionAt (agent : Agent) (path : String) (before : List Action) (a : Action) : Prop :=
  ∃ t ∈ agent.topicList, ∃ way later,
    descend Action.inner way t.actionList = before ++ a :: later ∧
      path = placePath (topicPath t.name) way before.length

theorem split_of_getElem? {α : Type} {l : List α} {i : Nat} {a : α} (h : l[i]? = some a) :
    ∃ later, l = l.take i ++ a :: later ∧ (l.take i).length = i := by
  obtain ⟨hi, rfl⟩ := List.getElem?_eq_some_iff.mp h
  refine ⟨l.drop (i + 1), ?_, List.length_take_of_le (Nat.le_of_lt hi)⟩
  rw [← List.drop_eq_getElem_cons hi, List.take_append_drop]

theorem check_assemble (options : Options) (agent : Agent) (name : String) (topics : List Topic)
    (s : σ) :
    ∃ (botId : Uuid) (s' : σ), (agent.assemble options name topics s).1.check =
      (dialogs options.publisher botId topics s').1.flatMap
        (Dialog.check (agent.assemble options name topics s).1.schemaNames) := by
  have hescalate : Naming.topic options.publisher "Escalate" ∈
      (agent.assemble options name topics s).1.schemaNames := by
    rw [topic_mem_schemaNames]
    exact Or.inl (by decide)
  generalize hknown : (agent.assemble options name topics s).1.schemaNames = known at hescalate
  rw [BotDocument.check, hknown, assemble_dialogs, assembledDialogs, List.flatMap_append,
    List.flatMap_eq_nil_iff.mpr (SystemTopics.check_all hescalate _ _ _ _), List.nil_append]
  exact ⟨_, _, rfl⟩

/-- What the check finds in an assembled document, in terms of the specification. -/
theorem mem_check_assemble (options : Options) (agent : Agent) (name : String) (s : σ)
    (x : PlacedFinding) :
    x ∈ (agent.assemble options name agent.topicList s).1.check ↔
      ∃ before a, agent.ActionAt x.1 before a ∧ x.2 ∈ a.linkFindings options.publisher
        (agent.assemble options name agent.topicList s).1.schemaNames before := by
  obtain ⟨botId, s', hcheck⟩ := check_assemble options agent name agent.topicList s
  rw [hcheck, mem_check_dialogs]
  constructor
  · rintro ⟨t, ht, way, i, a, ha, hpath, hf⟩
    obtain ⟨later, hsplit, hi⟩ := split_of_getElem? ha
    exact ⟨_, a, ⟨t, ht, way, later, hsplit, by rw [hpath, hi]⟩, hf⟩
  · rintro ⟨before, a, ⟨t, ht, way, later, hsplit, hpath⟩, hf⟩
    refine ⟨t, ht, way, before.length, a, ?_, hpath, ?_⟩
    · rw [hsplit]
      simp
    · rwa [hsplit, List.take_left]

theorem ActionAt.unique {agent : Agent} (hd : (agent.topicList.map Topic.stem).Nodup)
    {path : String} {before before' : List Action} {a a' : Action}
    (h : agent.ActionAt path before a) (h' : agent.ActionAt path before' a') :
    before = before' ∧ a = a' := by
  obtain ⟨t, ht, way, later, hsplit, hpath⟩ := h
  obtain ⟨t', ht', way', later', hsplit', hpath'⟩ := h'
  obtain ⟨hname, rfl, hlength⟩ := placePath_topicPath_inj (hpath.symm.trans hpath')
  obtain rfl : t = t' :=
    List.inj_on_of_nodup_map hd ht ht' (congrArg Naming.sanitizeSchema hname)
  obtain ⟨hbefore, hrest⟩ := List.append_inj (hsplit.symm.trans hsplit') hlength
  exact ⟨hbefore, (List.cons.inj hrest).1⟩

/-- What a finished document is checked for stands behind all that has been found before. -/
theorem diagnostics_conclude (options : Options) (agent : Agent) (name : String)
    (document : BotDocument) (j : Journal) :
    (agent.conclude options name document j).1.diagnostics = j.diagnostics ++
      (if options.checkReferences then document.check.map fun x => x.2.diagnostic x.1 else []) := by
  have hchecked : (agent.conclude options name document j).1.diagnostics =
      (finalCheck options document j).2.diagnostics := rfl
  rw [hchecked, adds_finalCheck options document j, Journal.diagnostics_append, finalCheck]
  split
  · simp
  · rfl

section Compiled

variable {options : Options} {agent : Agent} {s : σ} {r : Compilation}
  (h : (agent.compile options s).result = .ok r)

include h

theorem compile_unchecked (hc : options.checkReferences = true) :
    ∃ plain, (agent.compile { options with checkReferences := false } s).result = .ok plain ∧
      plain.document = r.document ∧
      r.diagnostics = plain.diagnostics ++ r.document.check.map fun x => x.2.diagnostic x.1 := by
  obtain ⟨name, hname, husable, hd, rfl⟩ := (compile_eq_ok options agent s r).mp h
  refine ⟨_, (compile_eq_ok _ agent s _).mpr ⟨name, hname, husable, hd, rfl⟩, rfl, ?_⟩
  rw [diagnostics_conclude, diagnostics_conclude, if_pos hc, if_neg Bool.false_ne_true,
    List.append_nil]
  rfl

theorem mem_check_iff (x : PlacedFinding) :
    x ∈ r.document.check ↔ ∃ before a, agent.ActionAt x.1 before a ∧
      x.2 ∈ a.linkFindings options.publisher r.document.schemaNames before := by
  obtain ⟨name, _, hdocument, _, _⟩ := compile_document options agent s r h
  rw [hdocument]
  exact mem_check_assemble options agent name s x

private theorem topic_notMem_schemaNames (topic : String) :
    Naming.topic options.publisher topic ∉ r.document.schemaNames ↔
      Naming.sanitizeSchema topic ∉ SystemTopics.stems ∧
        ∀ t ∈ agent.topicList, Naming.sanitizeSchema topic ≠ Naming.sanitizeSchema t.name := by
  obtain ⟨name, _, hdocument, _, _⟩ := compile_document options agent s r h
  rw [hdocument, topic_mem_schemaNames, not_or, List.mem_map]
  simp only [not_exists, not_and, ne_eq, @eq_comm _ (Naming.sanitizeSchema topic)]
  rfl

theorem unresolved_mem_check_iff (path schemaName : String) :
    (path, .unresolvedTopic schemaName) ∈ r.document.check ↔
      ∃ before topic, agent.ActionAt path before (.callTopic topic) ∧
        schemaName = Naming.topic options.publisher topic ∧
        Naming.sanitizeSchema topic ∉ SystemTopics.stems ∧
        ∀ t ∈ agent.topicList, Naming.sanitizeSchema topic ≠ Naming.sanitizeSchema t.name := by
  rw [mem_check_iff h]
  simp only [Action.unresolved_mem_linkFindings]
  constructor
  · rintro ⟨before, a, hat, topic, htarget, rfl, hknown⟩
    have hnames := (topic_notMem_schemaNames h topic).mp hknown
    cases a with
    | callTopic called =>
      cases htarget
      exact ⟨before, _, hat, rfl, hnames⟩
    | escalate =>
      -- a handover leads to a system topic
      cases htarget
      exact absurd (by decide) hnames.1
    | _ => cases htarget
  · rintro ⟨before, topic, hat, rfl, hnames⟩
    exact ⟨before, _, hat, topic, rfl, rfl, (topic_notMem_schemaNames h topic).mpr hnames⟩

private theorem unreachable_mem_check_iff (path kind : String) (index : Nat) :
    (path, .unreachable kind index) ∈ r.document.check ↔
      ∃ before a, agent.ActionAt path before a ∧ kind = a.nodeKind ∧
        before.findIdx? Action.isEnding = some index := by
  rw [mem_check_iff h]
  simp

theorem nodup_displayNames :
    (r.document.dialogs.map Dialog.displayName).Nodup := by
  have hok := acceptable_of_compile h
  obtain ⟨name, _, hdocument, _, _⟩ := compile_document options agent s r h
  rw [hdocument, assemble_dialogs, assembledDialogs_displayName]
  exact List.Nodup.of_map Naming.sanitizeSchema
    ((nodup_dialogTitles agent.topicList).mpr ⟨hok.distinct, hok.reserved⟩)

private theorem check_system :
    ∀ d ∈ r.document.dialogs, d.displayName ∈ SystemTopics.titles →
      d.check r.document.schemaNames = [] := by
  intro d hd htitle
  have hok := acceptable_of_compile h
  obtain ⟨name, _, hdocument, _, _⟩ := compile_document options agent s r h
  have hescalate : Naming.topic options.publisher "Escalate" ∈ r.document.schemaNames := by
    rw [hdocument, topic_mem_schemaNames]
    exact Or.inl (by decide)
  rw [hdocument, assemble_dialogs, assembledDialogs] at hd
  rcases List.mem_append.mp hd with hd | hd
  · exact SystemTopics.check_all hescalate _ _ _ _ d hd
  · -- a topic of the author with such a name would have been refused
    have hname := List.mem_map_of_mem (f := Dialog.displayName) hd
    rw [dialogs_displayName] at hname
    obtain ⟨t, ht, htname⟩ := List.mem_map.mp hname
    have hstem := List.mem_map_of_mem (f := Naming.sanitizeSchema) htitle
    rw [SystemTopics.map_sanitizeSchema_titles, ← htname] at hstem
    exact absurd hstem (hok.reserved t ht)

private theorem schemaName_of_instructions {i : Instructions}
    (hi : .instructions i ∈ r.document.components) :
    ∃ name, i.schemaName = Naming.instructions options.publisher name := by
  obtain ⟨name, _, hdocument, _, _⟩ := compile_document options agent s r h
  rw [hdocument, assemble_eq] at hi
  rcases List.mem_append.mp hi with hi | hi
  · obtain ⟨text, _, hi⟩ := Option.map_eq_some_iff.mp (Option.mem_toList.mp hi)
    cases hi
    exact ⟨name, rfl⟩
  · obtain ⟨d, _, hd⟩ := List.mem_map.mp hi
    cases hd

end Compiled

/-- The findings of the check are told by the specification. -/
theorem compile_findings (options : Options) (agent : Agent) (s : σ) (r : Compilation)
    (hc : options.checkReferences = true) (h : (agent.compile options s).result = .ok r) :
    (∃ plain, (agent.compile { options with checkReferences := false } s).result = .ok plain ∧
      plain.document = r.document ∧
      r.diagnostics = plain.diagnostics ++ r.document.check.map fun x => x.2.diagnostic x.1) ∧
    (∀ path schemaName, (path, .unresolvedTopic schemaName) ∈ r.document.check ↔
      ∃ before topic, agent.ActionAt path before (.callTopic topic) ∧
        schemaName = Naming.topic options.publisher topic ∧
        Naming.sanitizeSchema topic ∉ SystemTopics.stems ∧
        ∀ t ∈ agent.topicList, Naming.sanitizeSchema topic ≠ Naming.sanitizeSchema t.name) ∧
    (∀ path kind index, (path, .unreachable kind index) ∈ r.document.check ↔
      ∃ before a, agent.ActionAt path before a ∧ kind = a.nodeKind ∧
        before.findIdx? Action.isEnding = some index) ∧
    (∀ x ∈ r.document.check, (∃ schemaName, x.2 = .unresolvedTopic schemaName) ∨
      ∃ kind index, x.2 = .unreachable kind index) ∧
    (r.document.check.map Node.findingKey).Nodup ∧
    (∀ path before before' a a', agent.ActionAt path before a → agent.ActionAt path before' a' →
      before = before' ∧ a = a') ∧
    (∀ d ∈ r.document.dialogs, d.displayName ∈ SystemTopics.titles →
      d.check r.document.schemaNames = []) ∧
    (∀ path before schemaName, agent.ActionAt path before .escalate →
      (path, .unresolvedTopic schemaName) ∉ r.document.check) ∧
    ∀ i, .instructions i ∈ r.document.components → ∀ topic,
      i.schemaName ≠ Naming.topic options.publisher topic := by
  refine ⟨compile_unchecked h hc, unresolved_mem_check_iff h, unreachable_mem_check_iff h, ?_,
    BotDocument.nodup_check (nodup_displayNames h), ?_, check_system h, ?_, ?_⟩
  · intro x hx
    obtain ⟨before, a, _, hf⟩ := (mem_check_iff h x).mp hx
    exact Action.linkFindings_cases hf
  · intro path before before' a a' ha ha'
    exact ha.unique (acceptable_of_compile h).distinct ha'
  · -- at its place there is an escalation only, and no call of a topic
    intro path before schemaName hat hx
    obtain ⟨before', topic, hat', _⟩ := (unresolved_mem_check_iff h path schemaName).mp hx
    cases (hat.unique (acceptable_of_compile h).distinct hat').2
  · intro i hi topic heq
    obtain ⟨name, hname⟩ := schemaName_of_instructions h hi
    exact Naming.instructions_ne_topic _ _ _ (hname.symm.trans heq)

def closing : Agent := { empty with
  name := some "Desk"
  instructions := some "Close every request."
  topics := some [
    ⟨"Closing", none, none, some [
      .condition [⟨"=Topic.Open", [.callTopic "?!", .callTopic "Open-ing"]⟩] none,
      .endConversation, .escalate, .endConversation, .generativeAnswer]⟩,
    ⟨"Opening", none, none, none⟩] }

theorem closing_acceptable : closing.Acceptable {} where
  identified := ⟨⟨"Desk", rfl, by decide⟩, (Naming.isPublisher_iff _).mp (by decide)⟩
  usable := by decide
  distinct := by decide
  reserved := by decide

/-- The call of nothing is found, the call of the later topic is not, and behind two ends the first
one counts. -/
theorem closing_findings :
    ∃ r, (closing.compile {} SequentialIds.fresh).result = .ok r ∧
      ("topic 'Closing' > actions[0].conditions[0].then[0]", .unresolvedTopic "af_topic_") ∈
        r.document.check ∧
      ("topic 'Closing' > actions[0].conditions[0].then[1]", .unresolvedTopic "af_topic_Opening") ∉
        r.document.check ∧
      ("topic 'Closing' > actions[4]", .unreachable "SearchAndSummarizeContent" 1) ∈
        r.document.check := by
  obtain ⟨r, h⟩ := compile_of_acceptable SequentialIds.fresh {} closing closing_acceptable
  obtain ⟨_, hunresolved, hunreachable, _⟩ :=
    compile_findings {} closing SequentialIds.fresh r rfl h
  refine ⟨r, h, ?_, ?_, ?_⟩
  · exact (hunresolved _ _).mpr ⟨[], "?!",
      ⟨_, List.mem_cons_self, [⟨0, .branch 0⟩], [.callTopic "Open-ing"], rfl, by decide⟩,
      by decide, by decide, by decide⟩
  · intro hx
    obtain ⟨_, topic, _, hname, _, hnames⟩ := (hunresolved _ _).mp hx
    have hopening : Naming.topic "af" "Opening" = Naming.topic "af" topic := hname
    exact hnames _ (List.mem_cons_of_mem _ List.mem_cons_self)
      ((Naming.topic_inj _ _ _).mp hopening).symm
  · exact (hunreachable _ _ _).mpr ⟨[_, _, _, _], .generativeAnswer,
      ⟨_, List.mem_cons_self, [], [], rfl, by decide⟩, rfl, rfl⟩

/-- A handover behind the end of its list is found, although it always resolves. -/
theorem closing_escalate_found :
    ¬ ∀ r, (closing.compile {} SequentialIds.fresh).result = .ok r →
      ∀ path before finding, closing.ActionAt path before .escalate →
        (path, finding) ∉ r.document.check := by
  intro hnone
  obtain ⟨r, h⟩ := compile_of_acceptable SequentialIds.fresh {} closing closing_acceptable
  have hat : closing.ActionAt "topic 'Closing' > actions[2]"
      [.condition [⟨"=Topic.Open", [.callTopic "?!", .callTopic "Open-ing"]⟩] none,
        .endConversation] .escalate :=
    ⟨_, List.mem_cons_self, [], [.endConversation, .generativeAnswer], rfl, by decide⟩
  exact hnone r h _ _ (.unreachable "BeginDialog" 1) hat
    ((unreachable_mem_check_iff h _ _ _).mpr ⟨_, _, hat, rfl, rfl⟩)

end Agent
end Botwright
