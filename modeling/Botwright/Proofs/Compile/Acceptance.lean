import Botwright.Proofs.Compile.Outcome
import Botwright.Proofs.Identifier.Tokens
import Botwright.Proofs.SchemaNames

/-!
# Which agents compile

An agent compiles exactly when its name, the publisher and the names of its topics are usable, and
no topic takes the schema name of another or of a system topic. Any other agent is refused for the
first reason that applies, after a number of draws that its topics tell.
-/

namespace Botwright

def Topic.stem (t : Topic) : String := Naming.sanitizeSchema t.name

namespace Agent

/-- The agent has a usable name, and so has the publisher. -/
structure Identified (options : Options) (agent : Agent) : Prop where
  name : ∃ name, agent.name = some name ∧ Naming.sanitizeSchema name ≠ ""
  publisher : options.publisher ≠ "" ∧
    ∀ c ∈ options.publisher.toList, Naming.isAlphanumeric c = true

/-- What the specification and the options have to fulfil. Instructions play no part, nor does
the name of the agent beyond being usable. -/
structure Acceptable (options : Options) (agent : Agent) : Prop where
  identified : agent.Identified options
  usable : ∀ t ∈ agent.topicList, t.stem ≠ ""
  distinct : (agent.topicList.map Topic.stem).Nodup
  reserved : ∀ t ∈ agent.topicList, t.stem ∉ SystemTopics.stems

/-- The unique identifiers and the ids of the system topics, which every assembly draws, and the
ids of the given topics. -/
def drawCount (topics : List Topic) : Nat :=
  2 + SystemTopics.idCount + (topics.map Topic.idCount).sum

/-- Why an agent is refused, and after how many draws. The cases stand in their order: each one
excludes those before it. -/
inductive Refused (options : Options) (agent : Agent) : Failure → Nat → Prop where
  | unnamed (h : agent.name = none) : Refused options agent (.missingField "name") 0
  | unusableName {name : String} (h : agent.name = some name)
      (hu : Naming.sanitizeSchema name = "") : Refused options agent (.invalidName "name" name) 0
  | publisher {name : String} (h : agent.name = some name) (hu : Naming.sanitizeSchema name ≠ "")
      (hp : options.publisher = "" ∨
        ∃ c ∈ options.publisher.toList, Naming.isAlphanumeric c = false) :
      Refused options agent (.configuration ("prefix '" ++ options.publisher ++
        "' must be non-empty and ASCII alphanumeric")) 0
  | topicName {before later : List Topic} {t : Topic} (h : agent.Identified options)
      (hsplit : agent.topicList = before ++ t :: later) (hb : ∀ u ∈ before, u.stem ≠ "")
      (ht : t.stem = "") :
      Refused options agent
        (.invalidName ("topics[" ++ toString before.length ++ "].name") t.name) (drawCount before)
  /-- The names in front of the topic are distinct, so only one of them is the holder. -/
  | repeatedName {before later : List Topic} {t : Topic} {holder : String}
      (h : agent.Identified options) (hu : ∀ u ∈ agent.topicList, u.stem ≠ "")
      (hsplit : agent.topicList = before ++ t :: later)
      (hd : ((dialogTitles before).map Naming.sanitizeSchema).Nodup)
      (hh : holder ∈ dialogTitles before) (hs : Naming.sanitizeSchema holder = t.stem) :
      Refused options agent
        (.duplicateSchemaName (Naming.topic options.publisher t.name) holder t.name)
        (drawCount agent.topicList)

theorem Identified.checkName {options : Options} {agent : Agent} (h : agent.Identified options) :
    ∃ name, agent.checkName options = .ok name := by
  obtain ⟨name, hn, hu⟩ := h.name
  exact ⟨name, (checkName_eq_ok options agent name).mpr
    ⟨hn, hu, (Naming.isPublisher_iff _).mpr h.publisher⟩⟩

@[simp] theorem length_assemblyDraws (topics : List Topic) :
    (assemblyDraws topics).length = drawCount topics := by
  simp only [assemblyDraws, drawCount, List.length_cons, List.length_replicate]
  omega

private theorem nodup_schemaNames (options : Options) (agent : Agent) (name : String)
    (titles : List String) :
    ((instructionsKeys options agent name ++ titles.map (titleKey options.publisher)).map
      Prod.fst).Nodup ↔ (titles.map Naming.sanitizeSchema).Nodup := by
  have htitles : (titles.map (titleKey options.publisher)).map Prod.fst =
      titles.map (Naming.topic options.publisher) := by
    rw [List.map_map]
    rfl
  rw [List.map_append, htitles, ← Naming.nodup_map_topic options.publisher, instructionsKeys]
  cases agent.instructions with
  | none => rfl
  | some text =>
    change (Naming.instructions options.publisher name :: _).Nodup ↔ _
    rw [List.nodup_cons]
    constructor
    · exact And.right
    · intro h
      refine ⟨?_, h⟩
      intro hm
      obtain ⟨title, _, he⟩ := List.mem_map.mp hm
      exact Naming.instructions_ne_topic _ _ _ he.symm

theorem nodup_dialogTitles (topics : List Topic) :
    ((dialogTitles topics).map Naming.sanitizeSchema).Nodup ↔
      (topics.map Topic.stem).Nodup ∧ ∀ t ∈ topics, t.stem ∉ SystemTopics.stems := by
  have hstems : (topics.map Topic.name).map Naming.sanitizeSchema = topics.map Topic.stem := by
    rw [List.map_map]
    rfl
  have hsystem : SystemTopics.stems.Nodup := by decide
  rw [dialogTitles, List.map_append, SystemTopics.map_sanitizeSchema_titles, hstems,
    List.nodup_append]
  constructor
  · rintro ⟨_, hn, hd⟩
    refine ⟨hn, ?_⟩
    intro t ht hm
    exact hd _ hm _ (List.mem_map.mpr ⟨t, ht, rfl⟩) rfl
  · rintro ⟨hn, hd⟩
    refine ⟨hsystem, hn, ?_⟩
    rintro a ha b hb rfl
    obtain ⟨t, ht, rfl⟩ := List.mem_map.mp hb
    exact hd t ht ha

private theorem nodup_or_first_repeat {α β : Type} (f : α → β) (front l : List α)
    (hf : (front.map f).Nodup) :
    ((front ++ l).map f).Nodup ∨ ∃ before x later, l = before ++ x :: later ∧
      ((front ++ before).map f).Nodup ∧ f x ∈ (front ++ before).map f := by
  induction l generalizing front with
  | nil => exact Or.inl (by rwa [List.append_nil])
  | cons x l ih =>
    by_cases hx : f x ∈ front.map f
    · exact Or.inr ⟨[], x, l, rfl, by rwa [List.append_nil], by rwa [List.append_nil]⟩
    · have hfront : ((front ++ [x]).map f).Nodup := by
        rw [List.map_append, List.nodup_append]
        refine ⟨hf, List.nodup_singleton _, ?_⟩
        rintro a ha b hb rfl
        rw [List.map_singleton, List.mem_singleton] at hb
        exact hx (hb ▸ ha)
      rcases ih (front ++ [x]) hfront with h | ⟨before, y, later, rfl, hn, hm⟩
      · exact Or.inl (by rwa [List.append_assoc] at h)
      · rw [List.append_assoc] at hn hm
        exact Or.inr ⟨x :: before, y, later, rfl, hn, hm⟩

private theorem usable_or_first_unusable (topics : List Topic) :
    (∀ t ∈ topics, t.stem ≠ "") ∨ ∃ before t later, topics = before ++ t :: later ∧
      (∀ u ∈ before, u.stem ≠ "") ∧ t.stem = "" := by
  cases hf : topics.find? (fun t => t.stem == "") with
  | none =>
    left
    intro t ht
    simpa using List.find?_eq_none.mp hf t ht
  | some t =>
    obtain ⟨ht, before, later, rfl, hb⟩ := List.find?_eq_some_iff_append.mp hf
    exact Or.inr ⟨before, t, later, rfl, fun u hu => by simpa using hb u hu, by simpa using ht⟩

/-- The reasons for a refusal are exhaustive. -/
theorem acceptable_or_refused (options : Options) (agent : Agent) :
    agent.Acceptable options ∨ ∃ e n, agent.Refused options e n := by
  cases hname : agent.name with
  | none => exact Or.inr ⟨_, _, .unnamed hname⟩
  | some name =>
    by_cases hu : Naming.sanitizeSchema name = ""
    · exact Or.inr ⟨_, _, .unusableName hname hu⟩
    by_cases hp : options.publisher = "" ∨
        ∃ c ∈ options.publisher.toList, Naming.isAlphanumeric c = false
    · exact Or.inr ⟨_, _, .publisher hname hu hp⟩
    have hid : agent.Identified options := by
      simp only [not_or, not_exists, not_and, Bool.not_eq_false] at hp
      exact ⟨⟨name, hname, hu⟩, hp⟩
    rcases usable_or_first_unusable agent.topicList with hall | ⟨before, t, later, hs, hb, ht⟩
    · have hsystem : (SystemTopics.titles.map Naming.sanitizeSchema).Nodup := by decide
      rcases nodup_or_first_repeat Naming.sanitizeSchema SystemTopics.titles
        (agent.topicList.map Topic.name) hsystem with hn | ⟨before, t, later, hs, hn, hm⟩
      · have hd := (nodup_dialogTitles agent.topicList).mp hn
        exact Or.inl ⟨hid, hall, hd.1, hd.2⟩
      · obtain ⟨before', rest, hs', rfl, hrest⟩ := List.map_eq_append_iff.mp hs
        obtain ⟨t', later', rfl, rfl, rfl⟩ := List.map_eq_cons_iff.mp hrest
        obtain ⟨holder, hh, he⟩ := List.mem_map.mp hm
        exact Or.inr ⟨_, _, .repeatedName hid hall hs' hn hh he⟩
    · exact Or.inr ⟨_, _, .topicName hid hs hb ht⟩

section Outcome

variable {σ : Type} [IdSource σ] (s : σ)

theorem compile_of_acceptable (options : Options) (agent : Agent) (h : agent.Acceptable options) :
    ∃ r, (agent.compile options s).result = .ok r := by
  obtain ⟨name, hname⟩ := h.identified.checkName
  have hkeys := (nodup_schemaNames options agent name (dialogTitles agent.topicList)).mpr
    ((nodup_dialogTitles agent.topicList).mpr ⟨h.distinct, h.reserved⟩)
  rw [← assemble_keys options agent name agent.topicList s, List.map_map] at hkeys
  have hd := (duplicate_eq_none [] _).mpr ⟨hkeys, fun c _ => List.not_mem_nil⟩
  exact ⟨_, (compile_eq_ok options agent s _).mpr
    ⟨name, hname, fun t ht => t.hasUsableName_iff.mpr (h.usable t ht), hd, rfl⟩⟩

private theorem duplicate_assemble (options : Options) (agent : Agent) (name holder : String)
    (before later : List Topic) (t : Topic)
    (hd : ((dialogTitles before).map Naming.sanitizeSchema).Nodup)
    (hh : holder ∈ dialogTitles before) (hs : Naming.sanitizeSchema holder = t.stem) :
    duplicate [] (agent.assemble options name (before ++ t :: later) s).1.components =
      some (.duplicateSchemaName (Naming.topic options.publisher t.name) holder t.name) := by
  have hkeys := assemble_keys options agent name (before ++ t :: later) s
  have htitles : dialogTitles (before ++ t :: later) =
      dialogTitles before ++ t.name :: later.map Topic.name := by
    rw [dialogTitles, List.map_append, List.map_cons, ← List.append_assoc, ← dialogTitles]
  rw [htitles, List.map_append, List.map_cons, ← List.append_assoc] at hkeys
  obtain ⟨pre, rest, hcs, hpre, hrest⟩ := List.map_eq_append_iff.mp hkeys
  obtain ⟨c, post, rfl, hc, _⟩ := List.map_eq_cons_iff.mp hrest
  obtain ⟨hcname, hctitle⟩ := Prod.mk.inj hc
  have hnodup : (pre.map Component.schemaName).Nodup := by
    have hn := (nodup_schemaNames options agent name (dialogTitles before)).mpr hd
    rwa [← hpre, List.map_map] at hn
  have hholder : titleKey options.publisher holder ∈ pre.map Component.key := by
    rw [hpre]
    exact List.mem_append_right _ (List.mem_map.mpr ⟨holder, hh, rfl⟩)
  obtain ⟨own, hown, hkey⟩ := List.mem_map.mp hholder
  obtain ⟨honame, hotitle⟩ := Prod.mk.inj hkey
  have he : own.schemaName = c.schemaName := by
    rw [honame, hcname]
    exact (Naming.topic_inj _ _ _).mpr hs
  have hdup := duplicate_append [] pre post c own
    (by rwa [List.append_nil, List.map_reverse, List.nodup_reverse])
    (by rwa [List.append_nil, List.mem_reverse]) he
  rw [hcs, hdup, hcname, hctitle, hotitle]

private theorem result_of_checkName_error (options : Options) (agent : Agent) (e : Failure)
    (h : agent.checkName options = .error e) :
    (agent.compile options s).result = .error e ∧ (agent.draws options).length = 0 := by
  rw [compile_of_checkName_error options agent s e h, draws_of_checkName_error options agent e h]
  exact ⟨rfl, rfl⟩

theorem compile_of_refused (options : Options) (agent : Agent) (e : Failure) (n : Nat)
    (h : agent.Refused options e n) :
    (agent.compile options s).result = .error e ∧ (agent.draws options).length = n := by
  cases h with
  | unnamed h =>
    have hname := checkName_of_unnamed options agent h
    exact result_of_checkName_error s options agent _ hname
  | unusableName h hu =>
    have hname := checkName_of_unusable options agent _ h hu
    exact result_of_checkName_error s options agent _ hname
  | publisher h hu hp =>
    have hinvalid : ¬ Naming.isPublisher options.publisher = true := by
      rw [Naming.isPublisher_iff]
      rintro ⟨hne, hall⟩
      rcases hp with hp | ⟨c, hc, hp⟩
      · exact hne hp
      · rw [hall c hc] at hp
        cases hp
    have hname := checkName_of_usable options agent _ h hu
    rw [Naming.checkPublisher, if_neg hinvalid] at hname
    exact result_of_checkName_error s options agent _ hname
  | @topicName before later t hid hsplit hb ht =>
    obtain ⟨name, hname⟩ := hid.checkName
    have hfront : ∀ u ∈ before, u.hasUsableName = true :=
      fun u hu => u.hasUsableName_iff.mpr (hb u hu)
    have hunusable : ¬ t.hasUsableName = true := fun hu => t.hasUsableName_iff.mp hu ht
    have hfail := unusableTopic_append 0 before later t hfront hunusable
    rw [Nat.zero_add, ← hsplit] at hfail
    refine ⟨compile_of_unusableTopic options agent s name _ hname hfail, ?_⟩
    -- drawn for are the topics in front of the unusable one
    have htopics : agent.usableTopics = before := by
      rw [usableTopics, hsplit, List.takeWhile_append_of_pos hfront,
        List.takeWhile_cons_of_neg hunusable, List.append_nil]
    simp [draws_of_checkName options agent name hname, htopics]
  | @repeatedName before later t holder hid hu hsplit hd hh hs =>
    obtain ⟨name, hname⟩ := hid.checkName
    have husable : ∀ u ∈ agent.topicList, u.hasUsableName = true :=
      fun u hm => u.hasUsableName_iff.mpr (hu u hm)
    -- names are compared in the whole document, so all topics are drawn for
    have htopics := usableTopics_eq_topicList agent husable
    have hdup := duplicate_assemble s options agent name holder before later t hd hh hs
    rw [← hsplit, ← htopics] at hdup
    refine ⟨compile_of_duplicate options agent s name _ hname
      ((unusableTopic_eq_none 0 _).mpr husable) hdup, ?_⟩
    simp [draws_of_checkName options agent name hname, htopics]

end Outcome

theorem acceptable_of_compile {σ : Type} [IdSource σ] {options : Options} {agent : Agent} {s : σ}
    {r : Compilation} (h : (agent.compile options s).result = .ok r) :
    agent.Acceptable options := by
  rcases acceptable_or_refused options agent with hok | ⟨e, n, hrefused⟩
  · exact hok
  · rw [(compile_of_refused s options agent e n hrefused).1] at h
    cases h

/-- An agent whose own name reads like a part of schema names, with conditions inside conditions
and a topic that is called before it is declared. -/
def switchboard : Agent := { empty with
  name := some "topic"
  instructions := some "Route the caller."
  topics := some [
    ⟨"Billing", none, some ["invoice"], some [
      .condition [⟨"=Topic.Open", [.message "One moment.", .condition
        [⟨"=Topic.Late", [.callTopic "Opening Hours!"]⟩] (some [.endConversation])]⟩]
        (some [.question "Which invoice?" (some "number") none, .escalate])]⟩,
    ⟨"Opening Hours", none, none, some [.callTopic "Billing", .generativeAnswer]⟩] }

theorem switchboard_acceptable : switchboard.Acceptable {} where
  identified := ⟨⟨"topic", rfl, by decide⟩, (Naming.isPublisher_iff _).mp (by decide)⟩
  usable := by decide
  distinct := by decide
  reserved := by decide

/-- An agent compiles if and only if it is acceptable. Otherwise it is refused for the first reason
that applies, and the source stands as many draws further as that reason says. -/
theorem compile_acceptance (options : Options) (agent : Agent) (c : Nat) :
    ((∃ r, (agent.compile options (⟨c⟩ : SequentialIds)).result = .ok r) ↔
        agent.Acceptable options) ∧
      (∀ e, (agent.compile options (⟨c⟩ : SequentialIds)).result = .error e ↔
        ∃ n, agent.Refused options e n) ∧
      ∀ e n, agent.Refused options e n →
        (agent.compile options (⟨c⟩ : SequentialIds)).source = ⟨c + n⟩ := by
  have haccept := compile_of_acceptable (⟨c⟩ : SequentialIds) options agent
  have hrefuse := compile_of_refused (⟨c⟩ : SequentialIds) options agent
  refine ⟨⟨?_, haccept⟩, fun e => ⟨?_, ?_⟩, ?_⟩
  · rintro ⟨r, hr⟩
    rcases acceptable_or_refused options agent with h | ⟨e, n, h⟩
    · exact h
    · rw [(hrefuse e n h).1] at hr
      cases hr
  · intro he
    rcases acceptable_or_refused options agent with h | ⟨e', n, h⟩
    · obtain ⟨r, hr⟩ := haccept h
      rw [hr] at he
      cases he
    · rw [(hrefuse e' n h).1] at he
      cases he
      exact ⟨n, h⟩
  · rintro ⟨n, h⟩
    exact (hrefuse e n h).1
  · intro e n h
    simp [SequentialIds.after_eq, (hrefuse e n h).2]

/-- An agent whose second topic takes the schema name of a system topic. -/
def impostor : Agent := { empty with
  name := some "topic"
  topics := some [
    ⟨"Billing", none, none, some [.message "One moment."]⟩,
    ⟨"Greeting!", none, none, some [.condition [⟨"=Topic.Open", [.escalate]⟩] none]⟩] }

theorem impostor_refused : impostor.Refused {}
    (.duplicateSchemaName "af_topic_Greeting" "Greeting" "Greeting!") (2 + 13 + 4) := by
  have hid : impostor.Identified {} :=
    ⟨⟨"topic", rfl, by decide⟩, (Naming.isPublisher_iff _).mp (by decide)⟩
  have hsplit : impostor.topicList = [impostor.topicList[0]] ++ [impostor.topicList[1]] := rfl
  have hd : ((dialogTitles [impostor.topicList[0]]).map Naming.sanitizeSchema).Nodup := by decide
  have hh : "Greeting" ∈ dialogTitles [impostor.topicList[0]] := by decide
  have hs : Naming.sanitizeSchema "Greeting" = impostor.topicList[1].stem := by decide
  exact .repeatedName hid (by decide) hsplit hd hh hs

/-- One agent that is accepted, and one that is refused with its draws made. -/
theorem impostor_acceptance :
    (∃ r, (switchboard.compile {} (⟨5⟩ : SequentialIds)).result = .ok r) ∧
      (impostor.compile {} (⟨5⟩ : SequentialIds)).result =
        .error (.duplicateSchemaName "af_topic_Greeting" "Greeting" "Greeting!") ∧
      (impostor.compile {} (⟨5⟩ : SequentialIds)).source = ⟨24⟩ := by
  have haccept := (compile_acceptance {} switchboard 5).1.mpr switchboard_acceptable
  obtain ⟨_, hresult, hsource⟩ := compile_acceptance {} impostor 5
  exact ⟨haccept, (hresult _).mpr ⟨_, impostor_refused⟩, hsource _ _ impostor_refused⟩

end Agent
end Botwright
