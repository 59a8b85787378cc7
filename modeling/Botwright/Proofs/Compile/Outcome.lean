import Botwright.Proofs.Compile.Assembly
import Botwright.Proofs.Compile.Check
import Mathlib.Data.List.TakeWhile

/-!
# What a compilation can do

A compilation without a usable name and publisher does nothing. Otherwise it assembles the
document of the topics in front of the first unusable one, whatever happens next: it is refused for
that topic, refused for two components of one schema name, or gives that very document.
-/

namespace Botwright

open Recording

namespace Component

@[simp] theorem find?_eq_none (cs : List Component) (schemaName : String) :
    cs.find? (·.schemaName == schemaName) = none ↔
      schemaName ∉ cs.map Component.schemaName := by
  simp [List.find?_eq_none]

theorem find?_schemaName (cs : List Component) (c : Component)
    (hn : (cs.map schemaName).Nodup) (hc : c ∈ cs) :
    cs.find? (·.schemaName == c.schemaName) = some c := by
  cases hf : cs.find? (·.schemaName == c.schemaName) with
  | none =>
    have hne := List.find?_eq_none.mp hf c hc
    simp at hne
  | some holder =>
    have hm := List.mem_of_find?_eq_some hf
    have he : holder.schemaName = c.schemaName := by simpa using List.find?_some hf
    rw [List.inj_on_of_nodup_map hn hm hc he]

end Component

namespace Topic

theorem hasUsableName_iff (t : Topic) :
    t.hasUsableName = true ↔ Naming.sanitizeSchema t.name ≠ "" := by
  simp [hasUsableName]

end Topic

namespace Agent

theorem checkName_of_unnamed (options : Options) (agent : Agent) (h : agent.name = none) :
    agent.checkName options = .error (.missingField "name") := by
  rw [checkName, h]

theorem checkName_of_unusable (options : Options) (agent : Agent) (name : String)
    (h : agent.name = some name) (hu : Naming.sanitizeSchema name = "") :
    agent.checkName options = .error (.invalidName "name" name) := by
  simp only [checkName, h, hu]
  rfl

theorem checkName_of_usable (options : Options) (agent : Agent) (name : String)
    (h : agent.name = some name) (hu : Naming.sanitizeSchema name ≠ "") :
    agent.checkName options = (Naming.checkPublisher options.publisher).map fun _ => name := by
  have hfull : ¬ (Naming.sanitizeSchema name).isEmpty = true := by rwa [String.isEmpty_iff]
  simp only [checkName, h]
  rw [if_neg hfull]

theorem checkName_eq_ok (options : Options) (agent : Agent) (name : String) :
    agent.checkName options = .ok name ↔
      agent.name = some name ∧ Naming.sanitizeSchema name ≠ "" ∧
        Naming.isPublisher options.publisher = true := by
  constructor
  · intro h
    cases hn : agent.name with
    | none =>
      rw [checkName_of_unnamed options agent hn] at h
      cases h
    | some own =>
      by_cases hu : Naming.sanitizeSchema own = ""
      · rw [checkName_of_unusable options agent own hn hu] at h
        cases h
      · rw [checkName_of_usable options agent own hn hu, Naming.checkPublisher] at h
        by_cases hp : Naming.isPublisher options.publisher = true
        · rw [if_pos hp] at h
          cases h
          exact ⟨rfl, hu, hp⟩
        · rw [if_neg hp] at h
          cases h
  · rintro ⟨hn, hu, hp⟩
    rw [checkName_of_usable options agent name hn hu, Naming.checkPublisher, if_pos hp]
    rfl

theorem unusableTopic_eq_none (index : Nat) (topics : List Topic) :
    unusableTopic index topics = none ↔ ∀ t ∈ topics, t.hasUsableName = true := by
  induction topics generalizing index with
  | nil => simp [unusableTopic]
  | cons t topics ih =>
    by_cases h : t.hasUsableName = true
    · simp [unusableTopic, Topic.checkName, h, ih]
    · simp [unusableTopic, Topic.checkName, h]

theorem unusableTopic_append (index : Nat) (before later : List Topic) (t : Topic)
    (hb : ∀ u ∈ before, u.hasUsableName = true) (ht : ¬ t.hasUsableName = true) :
    unusableTopic index (before ++ t :: later) =
      some (.invalidName ("topics[" ++ toString (index + before.length) ++ "].name") t.name) := by
  induction before generalizing index with
  | nil => simp [unusableTopic, Topic.checkName, ht]
  | cons u before ih =>
    have hu := hb u List.mem_cons_self
    have hrest := ih (index + 1) fun v hv => hb v (List.mem_cons_of_mem u hv)
    rw [List.cons_append, unusableTopic, Topic.checkName, if_pos hu, List.length_cons,
      Nat.add_comm before.length, ← Nat.add_assoc]
    exact hrest

private theorem duplicate_cons_eq_none (before cs : List Component) (c : Component) :
    duplicate before (c :: cs) = none ↔
      c.schemaName ∉ before.map Component.schemaName ∧ duplicate (c :: before) cs = none := by
  rw [← Component.find?_eq_none]
  cases hf : before.find? (·.schemaName == c.schemaName) <;> simp [duplicate, hf]

theorem duplicate_eq_none (before cs : List Component) :
    duplicate before cs = none ↔
      (cs.map Component.schemaName).Nodup ∧
        ∀ c ∈ cs, c.schemaName ∉ before.map Component.schemaName := by
  induction cs generalizing before with
  | nil => simp [duplicate]
  | cons c cs ih =>
    have hsplit : (∀ c' ∈ cs, c'.schemaName ∉ (c :: before).map Component.schemaName) ↔
        c.schemaName ∉ cs.map Component.schemaName ∧
          ∀ c' ∈ cs, c'.schemaName ∉ before.map Component.schemaName := by
      simp [forall_and]
    rw [duplicate_cons_eq_none, ih, hsplit, List.map_cons, List.nodup_cons,
      List.forall_mem_cons]
    tauto

theorem duplicate_append (before cs later : List Component) (c holder : Component)
    (hn : ((cs.reverse ++ before).map Component.schemaName).Nodup)
    (hh : holder ∈ cs.reverse ++ before) (he : holder.schemaName = c.schemaName) :
    duplicate before (cs ++ c :: later) =
      some (.duplicateSchemaName c.schemaName holder.displayName c.displayName) := by
  induction cs generalizing before with
  | nil =>
    have hf := Component.find?_schemaName before holder hn hh
    rw [he] at hf
    simp only [List.nil_append, duplicate, hf]
  | cons x cs ih =>
    rw [List.reverse_cons, List.append_assoc, List.singleton_append] at hn hh
    have hx : x.schemaName ∉ before.map Component.schemaName := by
      rw [List.map_append, List.map_cons] at hn
      exact (List.nodup_cons.mp (List.nodup_append.mp hn).2.1).1
    have hf := (Component.find?_eq_none before x.schemaName).mpr hx
    simp only [List.cons_append, duplicate, hf]
    exact ih (x :: before) hn hh

def usableTopics (agent : Agent) : List Topic := agent.topicList.takeWhile Topic.hasUsableName

theorem usableTopics_eq_topicList (agent : Agent)
    (h : ∀ t ∈ agent.topicList, t.hasUsableName = true) :
    agent.usableTopics = agent.topicList :=
  List.takeWhile_eq_self_iff.mpr h

/-- The draws of a compilation: none without a name, else those of the topics in front of the first
unusable one. -/
def draws (options : Options) (agent : Agent) : List Draw :=
  match agent.checkName options with
  | .error _ => []
  | .ok _ => assemblyDraws agent.usableTopics

theorem draws_of_checkName_error (options : Options) (agent : Agent) (e : Failure)
    (h : agent.checkName options = .error e) : agent.draws options = [] := by
  rw [draws, h]

theorem draws_of_checkName (options : Options) (agent : Agent) (name : String)
    (h : agent.checkName options = .ok name) :
    agent.draws options = assemblyDraws agent.usableTopics := by
  rw [draws, h]

variable {σ : Type} [IdSource σ] (options : Options) (agent : Agent) (s : σ)

theorem compile_of_checkName_error (e : Failure) (h : agent.checkName options = .error e) :
    agent.compile options s = ⟨.error e, .empty, s⟩ := by
  rw [compile, h]

theorem compile_of_checkName (name : String) (h : agent.checkName options = .ok name) :
    agent.compile options s =
      let recorded := written (agent.recordAssembly options name agent.usableTopics)
      let assembled := agent.assemble options name agent.usableTopics s
      match unusableTopic 0 agent.topicList with
      | some e => ⟨.error e, recorded, assembled.2⟩
      | none =>
          match duplicate [] assembled.1.components with
          | some e => ⟨.error e, recorded, assembled.2⟩
          | none =>
              let concluded := agent.conclude options name assembled.1 recorded
              ⟨.ok concluded.1, concluded.2, assembled.2⟩ := by
  rw [compile, h]
  rfl

/-- What is drawn does not depend on how a compilation ends. -/
@[simp] theorem compile_source :
    (agent.compile options s).source = IdSource.after (agent.draws options) s := by
  unfold draws
  cases h : agent.checkName options with
  | error e => rw [compile_of_checkName_error options agent s e h]; rfl
  | ok name =>
    rw [compile_of_checkName options agent s name h]
    dsimp only
    rw [← assemble_source options agent name agent.usableTopics s]
    split
    · rfl
    · split <;> rfl

theorem compile_of_unusableTopic (name : String) (e : Failure)
    (h : agent.checkName options = .ok name) (hu : unusableTopic 0 agent.topicList = some e) :
    (agent.compile options s).result = .error e := by
  rw [compile_of_checkName options agent s name h, hu]

theorem compile_of_duplicate (name : String) (e : Failure)
    (h : agent.checkName options = .ok name) (hu : unusableTopic 0 agent.topicList = none)
    (hd : duplicate [] (agent.assemble options name agent.usableTopics s).1.components = some e) :
    (agent.compile options s).result = .error e := by
  rw [compile_of_checkName options agent s name h, hu]
  dsimp only
  rw [hd]

/-- A compilation succeeds only with a usable name, usable topics and distinct schema names, and
gives the document that was assembled. -/
theorem compile_eq_ok (r : Compilation) :
    (agent.compile options s).result = .ok r ↔
      ∃ name, agent.checkName options = .ok name ∧
        (∀ t ∈ agent.topicList, t.hasUsableName = true) ∧
        duplicate [] (agent.assemble options name agent.topicList s).1.components = none ∧
        r = (agent.conclude options name (agent.assemble options name agent.topicList s).1
          (written (agent.recordAssembly options name agent.topicList))).1 := by
  constructor
  · intro h
    cases hc : agent.checkName options with
    | error e =>
      rw [compile_of_checkName_error options agent s e hc] at h
      cases h
    | ok name =>
      cases hu : unusableTopic 0 agent.topicList with
      | some e =>
        rw [compile_of_unusableTopic options agent s name e hc hu] at h
        cases h
      | none =>
        have husable := (unusableTopic_eq_none 0 agent.topicList).mp hu
        rw [compile_of_checkName options agent s name hc, hu,
          usableTopics_eq_topicList agent husable] at h
        dsimp only at h
        refine ⟨name, rfl, husable, ?_⟩
        cases hd : duplicate []
            (agent.assemble options name agent.topicList s).1.components with
        | some e =>
          rw [hd] at h
          cases h
        | none =>
          rw [hd] at h
          cases h
          exact ⟨rfl, rfl⟩
  · rintro ⟨name, hc, husable, hd, rfl⟩
    rw [compile_of_checkName options agent s name hc,
      (unusableTopic_eq_none 0 agent.topicList).mpr husable,
      usableTopics_eq_topicList agent husable]
    dsimp only
    rw [hd]

theorem compile_document (r : Compilation) (h : (agent.compile options s).result = .ok r) :
    ∃ name, agent.checkName options = .ok name ∧
      r.document = (agent.assemble options name agent.topicList s).1 ∧
      (agent.compile options s).source = (agent.assemble options name agent.topicList s).2 ∧
      (r.document.components.map Component.schemaName).Nodup := by
  obtain ⟨name, hname, husable, hd, rfl⟩ := (compile_eq_ok options agent s r).mp h
  refine ⟨name, hname, rfl, ?_, ((duplicate_eq_none [] _).mp hd).1⟩
  simp [draws_of_checkName options agent name hname, usableTopics_eq_topicList agent husable]

/-- A successful compilation ends with the check of its document, on what its assembly recorded. -/
theorem compile_concluded (r : Compilation) (h : (agent.compile options s).result = .ok r) :
    ∃ name, (r, (agent.compile options s).journal) =
      agent.conclude options name r.document
        (written (agent.recordAssembly options name agent.topicList)) := by
  obtain ⟨name, hname, husable, hd, rfl⟩ := (compile_eq_ok options agent s r).mp h
  rw [compile_of_checkName options agent s name hname,
    (unusableTopic_eq_none 0 agent.topicList).mpr husable,
    usableTopics_eq_topicList agent husable]
  dsimp only
  rw [hd]
  exact ⟨name, rfl⟩

theorem adds_finalCheck (options : Options) (d : BotDocument) : Adds (finalCheck options d) := by
  rw [finalCheck]
  split
  · exact d.adds_inspect
  · exact adds_pure

/-- The journal of a successful compilation holds what its assembly records, what the check of its
document records and the event that ends it; the result has all diagnostics in it. -/
theorem compile_journal (r : Compilation) (h : (agent.compile options s).result = .ok r) :
    ∃ name ending, (agent.compile options s).journal =
        written (agent.recordAssembly options name agent.topicList) ++
          written (finalCheck options r.document) ++ written (progress ending) ∧
      r.diagnostics = (agent.compile options s).journal.diagnostics := by
  obtain ⟨name, hconcluded⟩ := compile_concluded options agent s r h
  obtain ⟨hr, hjournal⟩ := Prod.mk.inj hconcluded
  let recorded := written (agent.recordAssembly options name agent.topicList)
  let checked := (finalCheck options r.document recorded).2
  let cloud := Catalogue.cloudOf (agent.cloudTag options)
  let ending : Progress := .compiledAgent name r.document.components.length
    agent.topicList.length checked.diagnostics.length cloud.name
  have hchecked : checked = recorded ++ written (finalCheck options r.document) :=
    congrArg Prod.snd (adds_finalCheck options r.document recorded)
  have hend : (agent.compile options s).journal = checked ++ written (progress ending) :=
    hjournal.trans (congrArg Prod.snd (adds_progress ending checked))
  refine ⟨name, ending, by rw [hend, hchecked], ?_⟩
  rw [hend, Journal.diagnostics_append]
  exact (congrArg Compilation.diagnostics hr).trans (List.append_nil _).symm

end Agent
end Botwright
