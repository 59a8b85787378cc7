import Botwright.Proofs.Compile.Diagnostics
import Botwright.Proofs.Compile.Irrelevance

/-!
# The order of topics

A dialog is made of its own topic, references are looked up among all topics, and findings are told
apart by the names of topics. So topics in another order are accepted under the same conditions and
give the same components in that order, and the same diagnostics.
-/

namespace Botwright

namespace Agent

/-- The agent with other topics. -/
def withTopics (agent : Agent) (topics : List Topic) : Agent := { agent with topics := some topics }

def frontCount (agent : Agent) : Nat :=
  agent.instructions.toList.length + SystemTopics.titles.length

variable {agent : Agent} {topics : List Topic}

/-! ## Acceptance -/

private theorem acceptable_withTopics_iff {options : Options}
    (hperm : topics.Perm agent.topicList) :
    (agent.withTopics topics).Acceptable options ↔ agent.Acceptable options := by
  have hdistinct := (hperm.map Topic.stem).nodup_iff
  constructor
  · intro h
    exact ⟨⟨h.identified.name, h.identified.publisher⟩,
      fun t ht => h.usable t (hperm.mem_iff.mpr ht), hdistinct.mp h.distinct,
      fun t ht => h.reserved t (hperm.mem_iff.mpr ht)⟩
  · intro h
    exact ⟨⟨h.identified.name, h.identified.publisher⟩,
      fun t ht => h.usable t (hperm.mem_iff.mp ht), hdistinct.mpr h.distinct,
      fun t ht => h.reserved t (hperm.mem_iff.mp ht)⟩

private theorem Acceptable.not_refused {options : Options} (h : agent.Acceptable options)
    {e : Failure} {n : Nat} : ¬ agent.Refused options e n := by
  intro hrefused
  obtain ⟨r, hr⟩ := compile_of_acceptable SequentialIds.fresh options agent h
  rw [(compile_of_refused SequentialIds.fresh options agent e n hrefused).1] at hr
  cases hr

/-- Once its own name and the publisher are usable, an agent is refused for the name of a topic if
one has no usable name, else for a collision. -/
theorem Refused.of_identified {options : Options} {e : Failure} {n : Nat}
    (h : agent.Refused options e n) (hid : agent.Identified options) :
    (∃ t ∈ agent.topicList, t.stem = "") ∧ e.ctorIdx = (Failure.invalidName "" "").ctorIdx ∨
      (∀ t ∈ agent.topicList, t.stem ≠ "") ∧
        e.ctorIdx = (Failure.duplicateSchemaName "" "" "").ctorIdx := by
  obtain ⟨name, hname, husable⟩ := hid.name
  cases h with
  | unnamed h =>
    rw [h] at hname
    cases hname
  | unusableName h hu =>
    rw [h] at hname
    cases hname
    exact absurd hu husable
  | publisher h hu hp =>
    rcases hp with hp | ⟨c, hc, hp⟩
    · exact absurd hp hid.publisher.1
    · rw [hid.publisher.2 c hc] at hp
      cases hp
  | @topicName before later t _ hsplit _ ht =>
    exact Or.inl ⟨⟨t, by simp [hsplit], ht⟩, rfl⟩
  | repeatedName _ hu _ _ _ _ => exact Or.inr ⟨hu, rfl⟩

private theorem Refused.perm {options : Options} {e : Failure} {n : Nat}
    (h : agent.Refused options e n) (hperm : topics.Perm agent.topicList) :
    ∃ e' n', (agent.withTopics topics).Refused options e' n' ∧ e'.ctorIdx = e.ctorIdx := by
  have hidentified (hid : agent.Identified options) :
      ∃ e' n', (agent.withTopics topics).Refused options e' n' ∧ e'.ctorIdx = e.ctorIdx := by
    have hid' : (agent.withTopics topics).Identified options := ⟨hid.name, hid.publisher⟩
    rcases acceptable_or_refused options (agent.withTopics topics) with hok | ⟨e', n', h'⟩
    · exact absurd h ((acceptable_withTopics_iff hperm).mp hok).not_refused
    · refine ⟨e', n', h', ?_⟩
      rcases h.of_identified hid with ⟨⟨t, ht, hstem⟩, he⟩ | ⟨hall, he⟩
      · rcases h'.of_identified hid' with ⟨-, he'⟩ | ⟨hall', -⟩
        · rw [he, he']
        · exact absurd hstem (hall' t (hperm.mem_iff.mpr ht))
      · rcases h'.of_identified hid' with ⟨⟨t, ht, hstem⟩, -⟩ | ⟨-, he'⟩
        · exact absurd hstem (hall t (hperm.mem_iff.mp ht))
        · rw [he, he']
  cases h with
  | unnamed h => exact ⟨_, _, .unnamed h, rfl⟩
  | unusableName h hu => exact ⟨_, _, .unusableName h hu, rfl⟩
  | publisher h hu hp => exact ⟨_, _, .publisher h hu hp, rfl⟩
  | topicName hid _ _ _ => exact hidentified hid
  | repeatedName hid _ _ _ _ _ => exact hidentified hid

/-! ## Documents without their identifiers -/

section Blank

variable (options : Options) (agent : Agent) (name : String) (topics : List Topic) (b : BlankIds)

def blankDialog (publisher : String) (t : Topic) : Component :=
  .dialog (t.dialog publisher .zero BlankIds.mk).1

private theorem dialogs_blankIds (publisher : String) :
    (dialogs publisher .zero topics b).1.map Component.dialog =
      topics.map (blankDialog publisher) := by
  induction topics with
  | nil => rfl
  | cons t topics ih => exact congrArg (List.cons _) ih

def blankFront : List Component :=
  assembledInstructions options agent name BlankIds.mk ++
    (SystemTopics.all options.publisher .zero name agent BlankIds.mk).1.map .dialog

@[simp] theorem length_blankFront : (blankFront options agent name).length = agent.frontCount := by
  rw [blankFront, frontCount, List.length_append, assembledInstructions]
  cases agent.instructions <;> rfl

private theorem assemble_blankIds :
    (agent.assemble options name topics b).1.components =
      blankFront options agent name ++ topics.map (blankDialog options.publisher) := by
  rw [assemble_eq, assembledDialogs, blankFront, List.map_append, List.append_assoc,
    ← dialogs_blankIds topics b]
  rfl

end Blank

section Compiled

variable {σ τ : Type} [IdSource σ] [IdSource τ] {options : Options} {agent : Agent}
  {topics : List Topic} {s : σ} {t : τ} {r r' : Compilation}

private theorem blank_of_compile (h : (agent.compile options s).result = .ok r) :
    ∃ name, agent.name = some name ∧
      r.document.blank = (agent.assemble options name agent.topicList BlankIds.mk).1 := by
  obtain ⟨name, hname, hdocument, _, _⟩ := compile_document options agent s r h
  refine ⟨name, ((checkName_eq_ok options agent name).mp hname).1, ?_⟩
  rw [hdocument, assemble_blank BlankIds.mk]

private theorem blank_withTopics (h : (agent.compile options s).result = .ok r)
    (h' : ((agent.withTopics topics).compile options t).result = .ok r') :
    ∃ front, front.length = agent.frontCount ∧
      r.document.blank.components =
        front ++ agent.topicList.map (blankDialog options.publisher) ∧
      r'.document.blank =
        { r.document.blank with
          components := front ++ topics.map (blankDialog options.publisher) } := by
  obtain ⟨name, hname, hblank⟩ := blank_of_compile h
  obtain ⟨name', hname', hblank'⟩ := blank_of_compile h'
  obtain rfl : name = name' := Option.some.inj (hname.symm.trans hname')
  refine ⟨blankFront options agent name, length_blankFront options agent name, ?_, ?_⟩
  · rw [hblank, assemble_blankIds]
  · rw [hblank', hblank]
    have hrest : (agent.withTopics topics).assemble options name
        (agent.withTopics topics).topicList BlankIds.mk =
          agent.assemble options name topics BlankIds.mk := rfl
    rw [hrest, ← assemble_blankIds options agent name topics BlankIds.mk]
    rfl

private theorem schemaNames_withTopics (h : (agent.compile options s).result = .ok r)
    (h' : ((agent.withTopics topics).compile options t).result = .ok r')
    (hperm : topics.Perm agent.topicList) :
    r'.document.schemaNames.Perm r.document.schemaNames := by
  obtain ⟨front, _, hcomponents, hblank⟩ := blank_withTopics h h'
  rw [← BotDocument.schemaNames_blank, ← BotDocument.schemaNames_blank r.document,
    BotDocument.schemaNames, BotDocument.schemaNames, hblank, hcomponents]
  exact ((hperm.map _).append_left front).map _

private theorem actionAt_withTopics (hperm : topics.Perm agent.topicList) (path : String)
    (before : List Action) (a : Action) :
    (agent.withTopics topics).ActionAt path before a ↔ agent.ActionAt path before a := by
  have htopics : (agent.withTopics topics).topicList = topics := rfl
  simp only [ActionAt, htopics, hperm.mem_iff]

/-- Nothing is found twice in a document, so it is enough that the same is found. -/
theorem check_withTopics (h : (agent.compile options s).result = .ok r)
    (h' : ((agent.withTopics topics).compile options t).result = .ok r')
    (hperm : topics.Perm agent.topicList) : r'.document.check.Perm r.document.check := by
  have hnodup := (BotDocument.nodup_check (nodup_displayNames h)).of_map
  have hnodup' := (BotDocument.nodup_check (nodup_displayNames h')).of_map
  have hknown (schemaName : String) :=
    (schemaNames_withTopics h h' hperm).mem_iff (a := schemaName)
  refine (List.perm_ext_iff_of_nodup hnodup' hnodup).mpr fun x => ?_
  rw [mem_check_iff h, mem_check_iff h']
  simp only [actionAt_withTopics hperm, Action.linkFindings, hknown]

private theorem diagnostics_withTopics (h : (agent.compile options s).result = .ok r)
    (h' : ((agent.withTopics topics).compile options t).result = .ok r')
    (hperm : topics.Perm agent.topicList) : r'.diagnostics.Perm r.diagnostics := by
  rw [diagnostics_of_compile h, diagnostics_of_compile h']
  refine List.Perm.append (List.Perm.append (List.Perm.refl _) (hperm.flatMap_right _)) ?_
  split
  · exact (check_withTopics h h' hperm).map _
  · exact List.Perm.refl _

end Compiled

/-- Topics in another order are refused for a reason of the same kind, or compiled with the same
diagnostics, in another order, for the same cloud. Of the documents the same is left without their
identifiers, but for the order of the author's components, each of which goes with its topic. -/
theorem compile_topics_perm {σ τ : Type} [IdSource σ] [IdSource τ] (options : Options)
    (agent : Agent) (s : σ) (t : τ) (topics : List Topic) (hperm : topics.Perm agent.topicList) :
    match (agent.compile options s).result,
      ((agent.withTopics topics).compile options t).result with
    | .ok r, .ok r' =>
        r'.diagnostics.Perm r.diagnostics ∧ r'.cloud = r.cloud ∧
        r'.document.blank =
          { r.document.blank with components := r'.document.blank.components } ∧
        r'.document.components.length = r.document.components.length ∧
        r'.document.blank.components.take agent.frontCount =
          r.document.blank.components.take agent.frontCount ∧
        ∀ i j : Nat, topics[i]? = agent.topicList[j]? →
          (r'.document.blank.components.drop agent.frontCount)[i]? =
            (r.document.blank.components.drop agent.frontCount)[j]?
    | .error e, .error e' => e'.ctorIdx = e.ctorIdx
    | _, _ => False := by
  -- both are decided by what is asked of the topics, whatever their order
  rcases acceptable_or_refused options agent with hok | ⟨e, n, hrefused⟩
  · obtain ⟨r, h⟩ := compile_of_acceptable s options agent hok
    obtain ⟨r', h'⟩ := compile_of_acceptable t options (agent.withTopics topics)
      ((acceptable_withTopics_iff hperm).mpr hok)
    obtain ⟨front, hlength, hcomponents, hblank⟩ := blank_withTopics h h'
    have hcomponents' : r'.document.blank.components =
        front ++ topics.map (blankDialog options.publisher) := by rw [hblank]
    rw [h, h']
    refine ⟨diagnostics_withTopics h h' hperm, ?_, ?_, ?_, ?_, ?_⟩
    · obtain ⟨_, _, _, _, rfl⟩ := (compile_eq_ok options agent s r).mp h
      obtain ⟨_, _, _, _, rfl⟩ := (compile_eq_ok options _ t r').mp h'
      rfl
    · rw [hblank]
    · have hcount := congrArg List.length hcomponents
      have hcount' := congrArg List.length hcomponents'
      simp only [BotDocument.blank, List.length_map, List.length_append] at hcount hcount'
      rw [hcount, hcount', hperm.length_eq]
    · rw [hcomponents, hcomponents', List.take_left' hlength, List.take_left' hlength]
    · intro i j hij
      rw [hcomponents, hcomponents', List.drop_left' hlength, List.drop_left' hlength,
        List.getElem?_map, List.getElem?_map, hij]
  · obtain ⟨e', n', hrefused', he⟩ := hrefused.perm hperm
    rw [(compile_of_refused s options agent e n hrefused).1,
      (compile_of_refused t options _ e' n' hrefused').1]
    exact he

/-- The topics of the switchboard change places together with their dialogs, and the impostor is
refused for a collision in either order. -/
theorem switchboard_topics_perm :
    (∃ r r', (switchboard.compile {} SequentialIds.fresh).result = .ok r ∧
      ((switchboard.withTopics switchboard.topicList.reverse).compile {}
        (⟨5⟩ : SequentialIds)).result = .ok r' ∧
      r'.diagnostics.Perm r.diagnostics ∧
      (r'.document.blank.components.drop 8)[0]? = (r.document.blank.components.drop 8)[1]?) ∧
    ∃ e, ((impostor.withTopics impostor.topicList.reverse).compile {}
        SequentialIds.fresh).result = .error e ∧
      e.ctorIdx = (Failure.duplicateSchemaName "" "" "").ctorIdx := by
  have hswitchboard := List.reverse_perm switchboard.topicList
  have himpostor := List.reverse_perm impostor.topicList
  constructor
  · obtain ⟨r, h⟩ := compile_of_acceptable SequentialIds.fresh {} switchboard
      switchboard_acceptable
    obtain ⟨r', h'⟩ := compile_of_acceptable (⟨5⟩ : SequentialIds) {}
      (switchboard.withTopics switchboard.topicList.reverse)
      ((acceptable_withTopics_iff hswitchboard).mpr switchboard_acceptable)
    have hperm := compile_topics_perm {} switchboard SequentialIds.fresh (⟨5⟩ : SequentialIds)
      switchboard.topicList.reverse hswitchboard
    rw [h, h'] at hperm
    obtain ⟨hdiagnostics, _, _, _, _, hcomponents⟩ := hperm
    exact ⟨r, r', h, h', hdiagnostics, hcomponents 0 1 rfl⟩
  · have hperm := compile_topics_perm {} impostor SequentialIds.fresh SequentialIds.fresh
      impostor.topicList.reverse himpostor
    rw [(compile_of_refused SequentialIds.fresh {} impostor _ _ impostor_refused).1] at hperm
    cases h' : ((impostor.withTopics impostor.topicList.reverse).compile {}
        SequentialIds.fresh).result with
    | error e =>
      rw [h'] at hperm
      exact ⟨e, rfl, hperm⟩
    | ok r' =>
      rw [h'] at hperm
      exact hperm.elim

end Agent
end Botwright
