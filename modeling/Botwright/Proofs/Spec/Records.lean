import Botwright.Proofs.Spec.Reading

/-!
# The records around the actions

A topic and an agent read exactly when each of their fields does. What is read holds what was read
from the fields.
-/

namespace Botwright

open Decode

namespace Topic

/-- The fields of a topic, as they are checked. -/
def slots (v : Json) : List Slot :=
  [slot "name" .required (field v "name" 0 text),
    slot "description" .optional (field v "description" 1 (nullable text)),
    slot "triggers" .optional (field v "triggers" 2 (nullable readTrigger)),
    slot "actions" .optional (field v "actions" 3 (nullable Action.list))]

theorem fault?_ofJson (v : Json) :
    fault? (ofJson v) = fault? (checkRecord .plain "TopicSpec" (slots v) v) := by
  apply fault?_of_check
  intro hc
  obtain ⟨name, hname, hthere⟩ := read_of_checkRecord hc (List.mem_cons_self)
  obtain ⟨name, rfl⟩ := hthere rfl
  have hfound : ∀ s ∈ slots v, fault? s.found = none :=
    fun s hs => (found_of_checkRecord hc s hs).1
  simp only [slots, List.forall_mem_cons, fault?_slot] at hfound
  simp only [fault?_eq_none] at hfound
  obtain ⟨_, ⟨description, hd⟩, ⟨trigger, ht⟩, ⟨actions, ha⟩, _⟩ := hfound
  rw [hname, hd, ht, ha]
  exact ⟨_, rfl⟩

theorem reads_of_ofJson {v : Json} {t : Topic} (h : ofJson v = .ok t) :
    field v "name" 0 text = .ok (some t.name) ∧
      ∃ actions, field v "actions" 3 (nullable Action.list) = .ok actions ∧
        t.actions = actions.join := by
  rw [ofJson] at h
  obtain ⟨_, _, h⟩ := bind_eq_ok.mp h
  obtain ⟨name, hname, h⟩ := bind_eq_ok.mp h
  obtain ⟨description, _, h⟩ := bind_eq_ok.mp h
  obtain ⟨trigger, _, h⟩ := bind_eq_ok.mp h
  obtain ⟨actions, hactions, h⟩ := bind_eq_ok.mp h
  cases h
  exact ⟨present_eq_ok.mp hname, actions, hactions, rfl⟩

theorem value_of_mem_actionList {v : Json} {t : Topic} {a : Action} (h : ofJson v = .ok t)
    (ha : a ∈ t.actionList) :
    ∃ items x, fieldAt? "actions" 3 v = some (.array items) ∧ x ∈ items ∧ Action.ofJson x = a := by
  obtain ⟨_, _, hactions, ht⟩ := reads_of_ofJson h
  obtain ⟨actions, hsome, ha⟩ := mem_getD ha
  obtain ⟨w, hw, hread⟩ := read_of_join hactions (ht.symm.trans hsome)
  cases w with
  | array items =>
    rw [Action.list_array] at hread
    cases hread
    obtain ⟨x, hx, hread⟩ := List.mem_map.mp ha
    exact ⟨items, x, hw, hx, hread⟩
  | _ => cases hread

end Topic

namespace Agent

/-- The fields of an agent, as they are checked. -/
def slots (v : Json) : List Slot :=
  [slot "name" .optional (field v "name" 0 (nullable text)),
    slot "instructions" .optional (field v "instructions" 1 (nullable text)),
    slot "greeting" .optional (field v "greeting" 2 (nullable text)),
    slot "fallbackMessage" .optional (field v "fallbackMessage" 3 (nullable text)),
    slot "escalationMessage" .optional (field v "escalationMessage" 4 (nullable text)),
    slot "capabilities" .optional (field v "capabilities" 5 (nullable texts)),
    slot "metadata" .optional (field v "metadata" 6 (nullable Metadata.ofJson)),
    slot "security" .optional (field v "security" 7 (nullable Security.ofJson)),
    slot "topics" .optional (field v "topics" 8 (nullable (Decode.list Topic.ofJson)))]

theorem fault?_ofJson (v : Json) :
    fault? (ofJson v) = fault? (checkRecord .plain "AgentSpec" (slots v) v) := by
  apply fault?_of_check
  intro hc
  have hfound : ∀ s ∈ slots v, fault? s.found = none :=
    fun s hs => (found_of_checkRecord hc s hs).1
  simp only [slots, List.forall_mem_cons, fault?_slot] at hfound
  simp only [fault?_eq_none] at hfound
  obtain ⟨⟨name, h0⟩, ⟨instructions, h1⟩, ⟨greeting, h2⟩, ⟨fallback, h3⟩, ⟨escalation, h4⟩,
    ⟨capabilities, h5⟩, ⟨metadata, h6⟩, ⟨security, h7⟩, ⟨topics, h8⟩, _⟩ := hfound
  rw [h0, h1, h2, h3, h4, h5, h6, h7, h8]
  exact ⟨_, rfl⟩

theorem ofJson_of_reads {fields : Json.Fields}
    {name instructions greeting fallback escalation : Option (Option String)}
    {capabilities : Option (Option (List String))} {metadata : Option (Option Metadata)}
    {security : Option (Option Security)} {topics : Option (Option (List Topic))}
    (hname : field (.object fields) "name" 0 (nullable text) = .ok name)
    (hinstructions : field (.object fields) "instructions" 1 (nullable text) = .ok instructions)
    (hgreeting : field (.object fields) "greeting" 2 (nullable text) = .ok greeting)
    (hfallback : field (.object fields) "fallbackMessage" 3 (nullable text) = .ok fallback)
    (hescalation : field (.object fields) "escalationMessage" 4 (nullable text) = .ok escalation)
    (hcapabilities : field (.object fields) "capabilities" 5 (nullable texts) = .ok capabilities)
    (hmetadata : field (.object fields) "metadata" 6 (nullable Metadata.ofJson) = .ok metadata)
    (hsecurity : field (.object fields) "security" 7 (nullable Security.ofJson) = .ok security)
    (htopics : field (.object fields) "topics" 8 (nullable (Decode.list Topic.ofJson)) =
      .ok topics) :
    ofJson (.object fields) = .ok ⟨name.join, instructions.join, greeting.join, fallback.join,
      escalation.join, capabilities.join, metadata.join, security.join, topics.join⟩ := by
  rw [ofJson, hname, hinstructions, hgreeting, hfallback, hescalation, hcapabilities, hmetadata,
    hsecurity, htopics]
  rfl

theorem reads_of_ofJson {v : Json} {agent : Agent} (h : ofJson v = .ok agent) :
    ∃ name topics, field v "name" 0 (nullable text) = .ok name ∧ agent.name = name.join ∧
      field v "topics" 8 (nullable (Decode.list Topic.ofJson)) = .ok topics ∧
        agent.topics = topics.join := by
  rw [ofJson] at h
  obtain ⟨_, _, h⟩ := bind_eq_ok.mp h
  obtain ⟨name, hname, h⟩ := bind_eq_ok.mp h
  obtain ⟨instructions, _, h⟩ := bind_eq_ok.mp h
  obtain ⟨greeting, _, h⟩ := bind_eq_ok.mp h
  obtain ⟨fallback, _, h⟩ := bind_eq_ok.mp h
  obtain ⟨escalation, _, h⟩ := bind_eq_ok.mp h
  obtain ⟨capabilities, _, h⟩ := bind_eq_ok.mp h
  obtain ⟨metadata, _, h⟩ := bind_eq_ok.mp h
  obtain ⟨security, _, h⟩ := bind_eq_ok.mp h
  obtain ⟨topics, htopics, h⟩ := bind_eq_ok.mp h
  cases h
  exact ⟨name, topics, hname, rfl, htopics, rfl⟩

theorem value_of_mem_topicList {v : Json} {agent : Agent} {t : Topic} (h : ofJson v = .ok agent)
    (ht : t ∈ agent.topicList) :
    ∃ items x, fieldAt? "topics" 8 v = some (.array items) ∧ x ∈ items ∧
      Topic.ofJson x = .ok t := by
  obtain ⟨_, _, _, _, htopics, hagent⟩ := reads_of_ofJson h
  obtain ⟨topics, hsome, ht⟩ := mem_getD ht
  obtain ⟨w, hw, hread⟩ := read_of_join htopics (hagent.symm.trans hsome)
  obtain ⟨items, rfl, x, hx, hread⟩ := mem_of_list hread ht
  exact ⟨items, x, hw, hx, hread⟩

end Agent
end Botwright
