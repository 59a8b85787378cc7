import Botwright.Options.FromToml
import Botwright.Proofs.Compile.Acceptance
import Botwright.Proofs.Schema.Conforming
import Botwright.Proofs.Spec.RoundTrip

/-!
# The schema and the reader agree

A value that conforms to the schema reads as an agent, which is written so that it conforms again.
Of the reasons for refusing an agent, only those about its names are left.
-/

namespace Botwright

open Decode Schema AgentSpec

namespace Schema.AgentSpec

/-! ## Reading what conforms -/

/-- What conforms to a schema reads. -/
def Reads {α : Type} (schema : Json) (read : Json → Decoded α) : Prop :=
  ∀ v, Conforms schema v → fault? (read v) = none

private theorem reads_text : Reads text Decode.text := by
  intro v hv
  obtain ⟨s, rfl⟩ := (conforms_text v).mp hv
  rfl

private theorem reads_nonEmptyText : Reads nonEmptyText Decode.text := by
  intro v hv
  obtain ⟨s, rfl, _⟩ := (conforms_nonEmptyText v).mp hv
  rfl

private theorem reads_actions : Reads (definition "actions") Action.list := by
  intro v hv
  obtain ⟨items, rfl, _⟩ := (conforms_actions v).mp hv
  simp

section

variable {α : Type} {schema : Json} {read : Json → Decoded α}

theorem Reads.list (h : Reads schema read) : Reads (listOf schema) (Decode.list read) := by
  intro v hv
  obtain ⟨items, rfl, hitems⟩ := (conforms_listOf schema v).mp hv
  rw [Decode.list, fault?_mapM, List.findSome?_eq_none_iff]
  exact fun x hx => h x (hitems x hx)

theorem Reads.nullable (h : Reads schema read) : Reads schema (nullable read) := by
  intro v hv
  by_cases hnull : v = .null
  · rw [hnull]
    rfl
  · rw [nullable_of_ne_null read hnull, fault?_map]
    exact h v hv

theorem Reads.field (h : Reads schema read) {properties fields : Json.Fields} {name : String}
    (hf : FieldsConform properties fields) (hm : (name, schema) ∈ properties) (index : Nat) :
    fault? (field (.object fields) name index read) = none := by
  rw [Decode.field, fieldAt?]
  cases hx : Json.field? name fields with
  | none => rfl
  | some x =>
    change fault? ((read x).map some) = none
    rw [fault?_map]
    exact h x (hf _ hm x hx)

/-- A slot that does not stand in the way of a record. -/
def Fits (s : Slot) : Prop := fault? s.found = none ∧ (s.need = .required → s.found ≠ .ok false)

private theorem Reads.fits_optional (h : Reads schema read) {properties fields : Json.Fields}
    {name : String} (hf : FieldsConform properties fields) (hm : (name, schema) ∈ properties)
    (index : Nat) : Fits (slot name .optional (Decode.field (.object fields) name index read)) := by
  refine ⟨?_, nofun⟩
  rw [fault?_slot]
  exact h.field hf hm index

private theorem Reads.fits_required (h : Reads schema read) {properties fields : Json.Fields}
    {name : String} (hf : FieldsConform properties fields) (hm : (name, schema) ∈ properties)
    (index : Nat) {x : Json} (hx : Json.field? name fields = some x) :
    Fits (slot name .required (Decode.field (.object fields) name index read)) := by
  obtain ⟨a, ha⟩ := (fault?_eq_none _).mp (h x (hf _ hm x hx))
  have hfield : Decode.field (.object fields) name index read = .ok (some a) := by
    rw [Decode.field, fieldAt?, hx]
    change (read x).map some = _
    rw [ha]
    rfl
  rw [hfield]
  refine ⟨rfl, ?_⟩
  rintro - ⟨⟩

private theorem fault?_checkRecord {framing : Framing} {record : String} {slots : List Slot}
    {fields : Json.Fields} (h : ∀ s ∈ slots, Fits s) :
    fault? (checkRecord framing record slots (.object fields)) = none := by
  rw [(checkRecord_object_eq_ok framing record slots fields).mpr h]
  rfl

end

private theorem reads_readTrigger :
    Reads (recordOf [("phrases", listOf text)]) Topic.readTrigger := by
  intro v hv
  obtain ⟨fields, rfl, hf⟩ := (conforms_recordOf _ v).mp hv
  obtain ⟨phrases, hphrases⟩ :=
    (fault?_eq_none _).mp (reads_text.list.field hf List.mem_cons_self 0)
  have htexts : Decode.list Decode.text = texts := rfl
  rw [Topic.readTrigger, ← htexts, hphrases]
  rfl

private theorem reads_topic : Reads (definition "topic") Topic.ofJson := by
  intro v hv
  obtain ⟨fields, rfl, hf, x, hx⟩ := (conforms_topic v).mp hv
  rw [Topic.fault?_ofJson]
  apply fault?_checkRecord
  simp only [Topic.slots, List.forall_mem_cons]
  exact ⟨reads_nonEmptyText.fits_required hf (by simp) 0 hx,
    reads_text.nullable.fits_optional hf (by simp) 1,
    reads_readTrigger.nullable.fits_optional hf (by simp) 2,
    reads_actions.nullable.fits_optional hf (by simp) 3, List.forall_mem_nil _⟩

private theorem reads_metadata :
    Reads (recordOf [("cloud", text), ("description", text), ("language", text),
      ("version", text)]) Metadata.ofJson := by
  intro v hv
  obtain ⟨fields, rfl, hf⟩ := (conforms_recordOf _ v).mp hv
  have hread (name : String) (index : Nat) (hm : (name, text) ∈ [("cloud", text),
      ("description", text), ("language", text), ("version", text)]) :
      ∃ content, Decode.field (.object fields) name index (nullable Decode.text) = .ok content :=
    (fault?_eq_none _).mp (reads_text.nullable.field hf hm index)
  obtain ⟨language, hlanguage⟩ := hread "language" 0 (by simp)
  obtain ⟨cloud, hcloud⟩ := hread "cloud" 1 (by simp)
  obtain ⟨version, hversion⟩ := hread "version" 2 (by simp)
  obtain ⟨description, hdescription⟩ := hread "description" 3 (by simp)
  rw [Metadata.ofJson, hlanguage, hcloud, hversion, hdescription]
  rfl

private theorem reads_authentication : Reads (recordOf [("mode", text)]) Authentication.ofJson := by
  intro v hv
  obtain ⟨fields, rfl, hf⟩ := (conforms_recordOf _ v).mp hv
  obtain ⟨mode, hmode⟩ :=
    (fault?_eq_none _).mp (reads_text.nullable.field hf List.mem_cons_self 0)
  rw [Authentication.ofJson, hmode]
  rfl

private theorem reads_security :
    Reads (recordOf [("authentication", recordOf [("mode", text)])]) Security.ofJson := by
  intro v hv
  obtain ⟨fields, rfl, hf⟩ := (conforms_recordOf _ v).mp hv
  obtain ⟨authentication, hauthentication⟩ :=
    (fault?_eq_none _).mp (reads_authentication.nullable.field hf List.mem_cons_self 0)
  rw [Security.ofJson, hauthentication]
  rfl

private theorem reads_agent : Reads document Agent.ofJson := by
  intro v hv
  obtain ⟨fields, rfl, hf, -⟩ := (conforms_document v).mp hv
  rw [Agent.fault?_ofJson]
  apply fault?_checkRecord
  have htext (name : String) (index : Nat) (hm : (name, text) ∈ properties) :
      Fits (slot name .optional (Decode.field (.object fields) name index
        (nullable Decode.text))) :=
    reads_text.nullable.fits_optional hf hm index
  simp only [Agent.slots, List.forall_mem_cons]
  exact ⟨reads_nonEmptyText.nullable.fits_optional hf (by simp [properties]) 0,
    htext "instructions" 1 (by simp [properties]), htext "greeting" 2 (by simp [properties]),
    htext "fallbackMessage" 3 (by simp [properties]),
    htext "escalationMessage" 4 (by simp [properties]),
    reads_text.list.nullable.fits_optional hf (by simp [properties]) 5,
    reads_metadata.nullable.fits_optional hf (by simp [properties]) 6,
    reads_security.nullable.fits_optional hf (by simp [properties]) 7,
    reads_topic.list.nullable.fits_optional hf (by simp [properties]) 8,
    List.forall_mem_nil _⟩

/-! ## Conforming again -/

private theorem fieldsConform_presentFields {properties : Json.Fields}
    {entries : List (String × Option Json)} (hn : (entries.map Prod.fst).Nodup)
    (h : ∀ p ∈ properties, ∃ content, (p.1, content) ∈ entries ∧
      ∀ y, content = some y → Conforms p.2 y) :
    FieldsConform properties (Json.presentFields entries) := by
  intro p hp y hy
  obtain ⟨content, hm, hcontent⟩ := h p hp
  rw [Json.field?_presentFields hn hm] at hy
  exact hcontent y hy

private theorem conforms_map {α : Type} {schema : Json} {write : α → Json} {content : Option α}
    (h : ∀ a, content = some a → Conforms schema (write a)) :
    ∀ y, content.map write = some y → Conforms schema y := by
  intro y hy
  obtain ⟨a, ha, rfl⟩ := Option.map_eq_some_iff.mp hy
  exact h a ha

private theorem conforms_texts (values : List String) :
    Conforms (listOf text) (Json.texts values) := by
  refine (conforms_listOf text _).mpr ⟨_, rfl, ?_⟩
  intro x hx
  obtain ⟨s, _, rfl⟩ := List.mem_map.mp hx
  exact (conforms_text _).mpr ⟨s, rfl⟩

private theorem conforms_textContent (content : Option String) :
    ∀ y, content.map Json.string = some y → Conforms text y :=
  conforms_map fun s _ => (conforms_text _).mpr ⟨s, rfl⟩

private theorem conforms_metadata (m : Metadata) :
    Conforms (recordOf [("cloud", text), ("description", text), ("language", text),
      ("version", text)]) m.toJson := by
  refine (conforms_recordOf _ _).mpr ⟨_, rfl, ?_⟩
  apply fieldsConform_presentFields (by simp)
  simp only [List.forall_mem_cons]
  exact ⟨⟨_, by simp, conforms_textContent m.cloud⟩,
    ⟨_, by simp, conforms_textContent m.description⟩,
    ⟨_, by simp, conforms_textContent m.language⟩,
    ⟨_, by simp, conforms_textContent m.version⟩, List.forall_mem_nil _⟩

private theorem conforms_security (s : Security) :
    Conforms (recordOf [("authentication", recordOf [("mode", text)])]) s.toJson := by
  refine (conforms_recordOf _ _).mpr ⟨_, rfl, ?_⟩
  apply fieldsConform_presentFields (by simp)
  simp only [List.forall_mem_cons]
  refine ⟨⟨_, List.mem_cons_self, conforms_map ?_⟩, List.forall_mem_nil _⟩
  intro a _
  refine (conforms_recordOf _ _).mpr ⟨_, rfl, ?_⟩
  apply fieldsConform_presentFields (by simp)
  simp only [List.forall_mem_cons]
  exact ⟨⟨_, List.mem_cons_self, conforms_textContent a.mode⟩, List.forall_mem_nil _⟩

end Schema.AgentSpec

namespace Action

private theorem conforms_listToJson {actions : List Action}
    (h : ∀ a ∈ actions, Conforms (definition "action") a.toJson) :
    Conforms (definition "actions") (.array (listToJson actions)) := by
  refine (conforms_actions _).mpr ⟨_, rfl, ?_⟩
  intro x hx
  rw [listToJson_eq_map] at hx
  obtain ⟨a, ha, rfl⟩ := List.mem_map.mp hx
  exact h a ha

private theorem conforms_of_value? {arm : Arm} {v l : Json} (hv : Conforms (definition "action") v)
    (hl : arm.value? v = some l) : Conforms (definition "actions") l := by
  obtain ⟨fields, rfl, hf, -⟩ := (conforms_action v).mp hv
  simp only [FieldsConform, List.forall_mem_cons] at hf
  obtain ⟨hconditions, helse, -⟩ := hf
  cases arm with
  | otherwise => exact helse l hl
  | branch index =>
    obtain ⟨w, hw, hb⟩ := Option.bind_eq_some_iff.mp hl
    obtain ⟨b, hb, hl⟩ := Option.bind_eq_some_iff.mp hb
    obtain ⟨items, rfl, hitems⟩ := (conforms_listOf _ w).mp (hconditions w hw)
    have hbranch := hitems b (List.mem_of_getElem? hb)
    rw [AgentSpec.branch, conforms_recordWith] at hbranch
    obtain ⟨_, rfl, hf, -⟩ := hbranch
    simp only [FieldsConform, List.forall_mem_cons] at hf
    exact hf.2.1 l hl

theorem conforms_of_childless {fields : Json.Fields} {kind : String}
    (htype : Json.field? "type" fields = some (.string kind))
    (hconditions : Json.field? "conditions" fields = none)
    (helse : Json.field? "else" fields = none) :
    Conforms (definition "action") (.object fields) := by
  refine (conforms_action _).mpr ⟨fields, rfl, ?_, _, htype⟩
  simp only [FieldsConform, List.forall_mem_cons, htype, hconditions, helse]
  refine ⟨?_, ?_, ?_, List.forall_mem_nil _⟩
  · rintro _ ⟨⟩
  · rintro _ ⟨⟩
  · rintro _ ⟨⟩
    exact (conforms_text _).mpr ⟨kind, rfl⟩

private theorem conforms_branchesToJson {branches : List (Branch Action)}
    (h : ∀ b ∈ branches, ∀ a ∈ b.actions, Conforms (definition "action") a.toJson) :
    Conforms (listOf AgentSpec.branch) (.array (branchesToJson branches)) := by
  refine (conforms_listOf _ _).mpr ⟨_, rfl, ?_⟩
  induction branches with
  | nil => exact List.forall_mem_nil _
  | cons b rest ih =>
    obtain ⟨predicate, actions⟩ := b
    obtain ⟨hb, hrest⟩ := List.forall_mem_cons.mp h
    rw [branchesToJson, List.forall_mem_cons]
    refine ⟨?_, ih hrest⟩
    rw [AgentSpec.branch, conforms_recordWith]
    refine ⟨_, rfl, ?_, _, rfl⟩
    simp only [FieldsConform, List.forall_mem_cons]
    refine ⟨?_, ?_, List.forall_mem_nil _⟩
    · rintro _ ⟨⟩
      exact (conforms_text _).mpr ⟨predicate, rfl⟩
    · rintro _ ⟨⟩
      exact conforms_listToJson hb

private theorem conforms_condition {branches : List (Branch Action)}
    {otherwise : Option (List Action)}
    (h : ∀ arm, ∀ a ∈ (condition branches otherwise).inner arm,
      Conforms (definition "action") a.toJson) :
    Conforms (definition "action") (condition branches otherwise).toJson := by
  have hbranches : Conforms (listOf AgentSpec.branch) (.array (branchesToJson branches)) := by
    apply conforms_branchesToJson
    intro b hb a ha
    obtain ⟨arm, harm⟩ := inner_of_mem_branches otherwise hb
    exact h arm a (harm ▸ ha)
  have htype : Conforms text (.string "condition") := (conforms_text _).mpr ⟨_, rfl⟩
  cases otherwise with
  | none =>
    refine (conforms_action _).mpr ⟨_, rfl, ?_, _, rfl⟩
    simp only [FieldsConform, List.forall_mem_cons]
    refine ⟨?_, ?_, ?_, List.forall_mem_nil _⟩
    · rintro _ ⟨⟩
      exact hbranches
    · rintro _ ⟨⟩
    · rintro _ ⟨⟩
      exact htype
  | some actions =>
    refine (conforms_action _).mpr ⟨_, rfl, ?_, _, rfl⟩
    simp only [FieldsConform, List.forall_mem_cons]
    refine ⟨?_, ?_, ?_, List.forall_mem_nil _⟩
    · rintro _ ⟨⟩
      exact hbranches
    · rintro _ ⟨⟩
      exact conforms_listToJson (h .otherwise)
    · rintro _ ⟨⟩
      exact htype

private theorem conforms_of_known {a : Action} (hknown : a.isKnown = true)
    (h : ∀ arm, ∀ x ∈ a.inner arm, Conforms (definition "action") x.toJson) :
    Conforms (definition "action") a.toJson := by
  cases a with
  | question prompt answer entity =>
    cases answer <;> cases entity <;> exact conforms_of_childless rfl rfl rfl
  | condition branches otherwise => exact conforms_condition h
  | unrecognized kind body => cases hknown
  | malformed kind body reason => cases hknown
  | _ => exact conforms_of_childless rfl rfl rfl

private theorem conforms_toJson_ofJson (v : Json) (hv : Conforms (definition "action") v) :
    Conforms (definition "action") (ofJson v).toJson := by
  induction v using Seat.induction with
  | step v ih =>
    -- what is not known is written as it was, and what is known is written anew
    cases hknown : (ofJson v).isKnown with
    | false => rwa [toJson_ofJson_of_unknown hknown]
    | true =>
      apply conforms_of_known hknown
      intro arm a ha
      obtain ⟨index, w, hw, rfl⟩ := value_of_mem_inner ha
      apply ih ⟨arm, index⟩ w hw
      obtain ⟨l, hl, hitem⟩ := Option.bind_eq_some_iff.mp hw
      obtain ⟨items, rfl, hitems⟩ := (conforms_actions l).mp (conforms_of_value? hv hl)
      exact hitems w (List.mem_of_getElem? hitem)

end Action

namespace Topic

theorem conforms_toJson {t : Topic} (hname : t.name ≠ "")
    (h : ∀ a ∈ t.actionList, Conforms (definition "action") a.toJson) :
    Conforms (definition "topic") t.toJson := by
  have hname : ∀ y, some (Json.string t.name) = some y → Conforms nonEmptyText y := by
    rintro _ ⟨⟩
    exact (conforms_nonEmptyText _).mpr ⟨t.name, rfl, hname⟩
  have htrigger : ∀ y, (t.trigger.map fun phrases => .object [("phrases", Json.texts phrases)]) =
      some y → Conforms (recordOf [("phrases", listOf text)]) y := by
    apply conforms_map
    intro phrases _
    refine (conforms_recordOf _ _).mpr ⟨_, rfl, ?_⟩
    simp only [FieldsConform, List.forall_mem_cons]
    refine ⟨?_, List.forall_mem_nil _⟩
    rintro _ ⟨⟩
    exact conforms_texts phrases
  have hactions : ∀ y, (t.actions.map fun actions => .array (Action.listToJson actions)) =
      some y → Conforms (definition "actions") y := by
    apply conforms_map
    intro actions hactions
    apply Action.conforms_listToJson
    rwa [actionList, hactions] at h
  refine (conforms_topic _).mpr ⟨_, rfl, ?_, _, rfl⟩
  apply fieldsConform_presentFields (by simp)
  simp only [List.forall_mem_cons]
  exact ⟨⟨_, by simp, hactions⟩, ⟨_, by simp, conforms_textContent t.description⟩,
    ⟨_, by simp, hname⟩, ⟨_, by simp, htrigger⟩, List.forall_mem_nil _⟩

private theorem conforms_of_ofJson {v : Json} {t : Topic} (hv : Conforms (definition "topic") v)
    (h : ofJson v = .ok t) : Conforms (definition "topic") t.toJson := by
  obtain ⟨fields, rfl, hf, _, hx⟩ := (conforms_topic v).mp hv
  simp only [FieldsConform, List.forall_mem_cons] at hf
  obtain ⟨hfactions, -, hfname, -⟩ := hf
  have hname := (reads_of_ofJson h).1
  apply conforms_toJson
  · obtain ⟨s, rfl, hs⟩ := (conforms_nonEmptyText _).mp (hfname _ hx)
    rw [field, fieldAt?, hx] at hname
    change Except.ok (some s) = .ok (some t.name) at hname
    cases hname
    exact hs
  · intro a ha
    obtain ⟨items, x, hitems, hx, rfl⟩ := value_of_mem_actionList h ha
    obtain ⟨_, ⟨⟩, hconform⟩ := (conforms_actions _).mp (hfactions _ hitems)
    exact Action.conforms_toJson_ofJson x (hconform x hx)

end Topic

namespace Agent

theorem conforms_toJson {agent : Agent} {name : String} (hname : agent.name = some name)
    (hne : name ≠ "") (h : ∀ t ∈ agent.topicList, Conforms (definition "topic") t.toJson) :
    Conforms document agent.toJson := by
  have hnameText : ∀ y, agent.name.map Json.string = some y → Conforms nonEmptyText y := by
    rw [hname]
    rintro _ ⟨⟩
    exact (conforms_nonEmptyText _).mpr ⟨name, rfl, hne⟩
  have htopics : ∀ y, (agent.topics.map fun topics => .array (topics.map Topic.toJson)) =
      some y → Conforms (listOf (definition "topic")) y := by
    apply conforms_map
    intro topics htopics
    refine (conforms_listOf _ _).mpr ⟨_, rfl, ?_⟩
    intro x hx
    obtain ⟨t, ht, rfl⟩ := List.mem_map.mp hx
    apply h
    rwa [topicList, htopics]
  have hcapabilities : ∀ y, agent.capabilities.map Json.texts = some y →
      Conforms (listOf text) y :=
    conforms_map fun values _ => conforms_texts values
  have hmetadata := conforms_map fun m (_ : agent.metadata = some m) => conforms_metadata m
  have hsecurity := conforms_map fun s (_ : agent.security = some s) => conforms_security s
  refine (conforms_document _).mpr ⟨_, rfl, ?_, .string name, ?_⟩
  · apply fieldsConform_presentFields (by simp)
    simp only [properties, List.forall_mem_cons]
    exact ⟨⟨_, by simp, hcapabilities⟩,
      ⟨_, by simp, conforms_textContent agent.escalationMessage⟩,
      ⟨_, by simp, conforms_textContent agent.fallbackMessage⟩,
      ⟨_, by simp, conforms_textContent agent.greeting⟩,
      ⟨_, by simp, conforms_textContent agent.instructions⟩,
      ⟨_, by simp, hmetadata⟩, ⟨_, by simp, hnameText⟩, ⟨_, by simp, hsecurity⟩,
      ⟨_, by simp, htopics⟩, List.forall_mem_nil _⟩
  · rw [hname]
    rfl

/-- A specification that conforms reads with its own name, and is written so that it conforms
again. -/
theorem ofJson_of_conforms {v : Json} (hv : Conforms document v) :
    ∃ agent name, ofJson v = .ok agent ∧ v.get? "name" = some (.string name) ∧
      agent.name = some name ∧ Conforms document agent.toJson := by
  obtain ⟨agent, hagent⟩ := (fault?_eq_none _).mp (reads_agent v hv)
  obtain ⟨fields, rfl, hf, x, hx⟩ := (conforms_document v).mp hv
  have hfname := hf ("name", nonEmptyText) (by simp [properties]) x hx
  have hftopics := hf ("topics", listOf (definition "topic")) (by simp [properties])
  obtain ⟨name, rfl, hne⟩ := (conforms_nonEmptyText x).mp hfname
  obtain ⟨_, _, hname, hagentName, _, _⟩ := reads_of_ofJson hagent
  rw [field, fieldAt?, hx] at hname
  cases hname
  refine ⟨agent, name, hagent, hx, hagentName, conforms_toJson hagentName hne ?_⟩
  intro t ht
  obtain ⟨items, y, hitems, hy, hread⟩ := value_of_mem_topicList hagent ht
  obtain ⟨_, ⟨⟩, hconform⟩ := (conforms_listOf _ _).mp (hftopics _ hitems)
  exact Topic.conforms_of_ofJson (hconform y hy) hread

private theorem failure_of_refused {options : Options} {agent : Agent} {e : Failure} {n : Nat}
    (h : agent.Refused options e n) (hname : agent.name ≠ none)
    (hp : Naming.isPublisher options.publisher = true) :
    (∃ field value, e = .invalidName field value) ∨
      ∃ schemaName first second, e = .duplicateSchemaName schemaName first second := by
  cases h with
  | unnamed h => exact absurd h hname
  | unusableName h hu => exact Or.inl ⟨_, _, rfl⟩
  | publisher h hu hinvalid =>
    obtain ⟨hne, hall⟩ := (Naming.isPublisher_iff _).mp hp
    rcases hinvalid with hempty | ⟨c, hc, hbad⟩
    · exact absurd hempty hne
    · rw [hall c hc] at hbad
      cases hbad
  | topicName h hsplit hb ht => exact Or.inl ⟨_, _, rfl⟩
  | repeatedName h hu hsplit hd hh hs => exact Or.inr ⟨_, _, _, rfl⟩

@[simp] theorem requireValid_eq_ok (violations : List Violation) :
    requireValid violations = .ok () ↔ violations = [] := by
  cases violations <;> simp [requireValid]

@[simp] theorem checkPublisher_eq_ok (publisher : String) :
    Naming.checkPublisher publisher = .ok () ↔ Naming.isPublisher publisher = true := by
  simp [Naming.checkPublisher]

private theorem checkPublisher_of_ofToml {text : String} {options : Options}
    (h : Options.ofToml text = .ok options) :
    Naming.checkPublisher options.publisher = .ok () := by
  rw [Options.ofToml] at h
  split at h
  · cases h
  · split at h
    · cases h
    next read _ =>
      cases hp : Naming.checkPublisher read.publisher with
      | error e =>
        rw [hp] at h
        cases h
      | ok u =>
        rw [hp] at h
        cases h
        exact hp

/-- A specification that passes the validation reads as an agent of the same name, which is written
so that it passes again. Under a usable publisher, as every file of options has one, the agent is
refused for no other reason than its names. -/
theorem valid_agreement (v : Json) :
    (requireValid (validate document v) = .ok () ↔ validate document v = []) ∧
    (validate document v = [] →
      ∃ agent name, ofJson v = .ok agent ∧ v.get? "name" = some (.string name) ∧
        agent.name = some name ∧ validate document agent.toJson = [] ∧
        ∀ options : Options, Naming.checkPublisher options.publisher = .ok () →
          ∀ {σ : Type} [IdSource σ] (s : σ) (e : Failure),
            (agent.compile options s).result = .error e →
              (∃ field value, e = .invalidName field value) ∨
                ∃ schemaName first second, e = .duplicateSchemaName schemaName first second) ∧
    ∀ text options, Options.ofToml text = .ok options →
      Naming.checkPublisher options.publisher = .ok () := by
  refine ⟨requireValid_eq_ok _, ?_, fun text options => checkPublisher_of_ofToml⟩
  intro hv
  obtain ⟨agent, name, hagent, hname, hagentName, hagain⟩ := ofJson_of_conforms hv
  refine ⟨agent, name, hagent, hname, hagentName, hagain, ?_⟩
  intro options hp σ _ s e he
  rcases acceptable_or_refused options agent with hok | ⟨f, n, hrefused⟩
  · obtain ⟨r, hr⟩ := compile_of_acceptable s options agent hok
    rw [hr] at he
    cases he
  · have hf := (compile_of_refused s options agent f n hrefused).1
    rw [hf] at he
    cases he
    exact failure_of_refused hrefused (by rw [hagentName]; nofun)
      ((checkPublisher_eq_ok _).mp hp)

/-- A topic that takes the name of a system topic passes the validation, so that its agent is
refused only when it is compiled. -/
theorem impostor_agreement :
    ∃ agent e, ofJson impostor.toJson = .ok agent ∧ validate document agent.toJson = [] ∧
      (agent.compile {} SequentialIds.fresh).result = .error e ∧
      ((∃ field value, e = .invalidName field value) ∨
        ∃ schemaName first second, e = .duplicateSchemaName schemaName first second) := by
  obtain ⟨agent, _, hagent, _, _, hagain, hfail⟩ :=
    (valid_agreement impostor.toJson).2.1 (by decide)
  have hread : ofJson impostor.toJson = .ok impostor := rfl
  obtain rfl : impostor = agent := Except.ok.inj (hread.symm.trans hagent)
  have herror := (compile_of_refused SequentialIds.fresh {} impostor _ _ impostor_refused).1
  exact ⟨impostor, _, hagent, hagain, herror, hfail {} (by decide) _ _ herror⟩

end Agent
end Botwright
