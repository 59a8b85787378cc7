import Botwright.Proofs.Spec.Locality

/-!
# Specifications round-trip

What was read is written so that it reads as the same again. This holds of every action that was
read, however deep it stands: a known action writes all that it was read from, and any other is
written as it was.
-/

namespace Botwright

open Decode

namespace Decode

theorem field_written {α : Type} {entries : List (String × Option Json)} {name : String}
    {x : Json} {read : Json → Decoded α} {a : α} (hn : (entries.map Prod.fst).Nodup)
    (hm : (name, some x) ∈ entries) (index : Nat) (hread : read x = .ok a) :
    field (.object (Json.presentFields entries)) name index read = .ok (some a) := by
  rw [field, fieldAt?, Json.field?_presentFields hn hm]
  change (read x).map some = _
  rw [hread]
  rfl

theorem nullable_field_written {α : Type} {entries : List (String × Option Json)} {name : String}
    {content : Option α} {read : Json → Decoded α} (write : α → Json)
    (hn : (entries.map Prod.fst).Nodup) (hm : (name, content.map write) ∈ entries) (index : Nat)
    (hread : ∀ a, content = some a → read (write a) = .ok a)
    (hnull : ∀ a, write a ≠ .null) :
    field (.object (Json.presentFields entries)) name index (nullable read) =
      .ok (content.map some) := by
  cases content with
  | none => rw [field, fieldAt?, Json.field?_presentFields hn hm]; rfl
  | some a =>
    apply field_written hn hm
    rw [nullable_of_ne_null read (hnull a), hread a rfl]
    rfl

@[simp] theorem join_map_some {α : Type} (content : Option α) :
    (content.map some).join = content := by
  cases content <;> rfl

theorem list_written {α : Type} {write : α → Json} {read : Json → Decoded α} {items : List α}
    (h : ∀ a ∈ items, read (write a) = .ok a) :
    Decode.list read (.array (items.map write)) = .ok items := by
  apply (mapM_eq_ok read (items.map write) items).mpr
  rw [List.map_map]
  exact List.map_congr_left h

@[simp] theorem texts_written (values : List String) : texts (Json.texts values) = .ok values :=
  list_written fun _ _ => rfl

end Decode

namespace Action

@[simp] theorem listToJson_eq_map (actions : List Action) :
    listToJson actions = actions.map toJson := by
  induction actions with
  | nil => rfl
  | cons a rest ih => rw [listToJson, ih, List.map_cons]

/-- An action that reads as itself once it is written. -/
def Faithful (a : Action) : Prop := ofJson a.toJson = a

private theorem list_listToJson {actions : List Action} (h : ∀ a ∈ actions, Faithful a) :
    list (.array (listToJson actions)) = .ok actions := by
  rw [list_array, listToJson_eq_map, List.map_map]
  congr 1
  exact (List.map_congr_left h).trans (List.map_id actions)

private theorem mapM_branchesToJson {branches : List (Branch Action)}
    (h : ∀ b ∈ branches, ∀ a ∈ b.actions, Faithful a) :
    (branchesToJson branches).mapM branch = .ok branches := by
  induction branches with
  | nil => rfl
  | cons b rest ih =>
    obtain ⟨predicate, actions⟩ := b
    obtain ⟨hb, hrest⟩ := List.forall_mem_cons.mp h
    have hbranch : branch (.object [("if", .string predicate),
        ("then", .array (listToJson actions))]) = .ok ⟨predicate, actions⟩ := by
      rw [branch_eq]
      change ofBranch _ ((list (.array (listToJson actions))).map some) = _
      rw [list_listToJson hb]
      rfl
    rw [branchesToJson, mapM_cons_eq, ih hrest, hbranch]
    rfl

private theorem faithful_condition {branches : List (Branch Action)}
    {otherwise : Option (List Action)}
    (h : ∀ arm, ∀ a ∈ (condition branches otherwise).inner arm, Faithful a) :
    Faithful (condition branches otherwise) := by
  have hinside : ∀ b ∈ branches, ∀ a ∈ b.actions, Faithful a := by
    intro b hb a ha
    obtain ⟨arm, harm⟩ := inner_of_mem_branches otherwise hb
    exact h arm a (harm ▸ ha)
  have hbranches (rest : Json.Fields) : field (.object (("type", .string "condition") ::
      ("conditions", .array (branchesToJson branches)) :: rest)) "conditions" 0
      (Decode.list branch) = .ok (some branches) := by
    change ((branchesToJson branches).mapM branch).map some = _
    rw [mapM_branchesToJson hinside]
    rfl
  cases otherwise with
  | none => exact ofJson_condition rfl (hbranches []) rfl
  | some actions =>
    have hactions : ∀ a ∈ actions, Faithful a := h .otherwise
    have hotherwise : field (.object [("type", .string "condition"),
        ("conditions", .array (branchesToJson branches)),
        ("else", .array (listToJson actions))]) "else" 1 (nullable list) =
        .ok (some (some actions)) := by
      change ((list (.array (listToJson actions))).map some).map some = _
      rw [list_listToJson hactions]
      rfl
    exact ofJson_condition rfl (hbranches _) hotherwise

private theorem faithful_of_known {a : Action} (hknown : a.isKnown = true)
    (h : ∀ arm, ∀ x ∈ a.inner arm, Faithful x) : Faithful a := by
  cases a with
  | message text => rfl
  | question prompt answer entity =>
    cases answer <;> cases entity <;> rfl
  | condition branches otherwise => exact faithful_condition h
  | setVariable name value => rfl
  | callTopic topic => rfl
  | callConnector connector operation inputs => rfl
  | callFlow flow inputs => rfl
  | generativeAnswer => rfl
  | endConversation => rfl
  | escalate => rfl
  | unrecognized kind body => cases hknown
  | malformed kind body reason => cases hknown

/-- Whatever is read is faithful, since what is inside it was read as well. -/
theorem faithful_ofJson (v : Json) : Faithful (ofJson v) := by
  induction v using Seat.induction with
  | step v ih =>
    cases hknown : (ofJson v).isKnown with
    | false => rw [Faithful, toJson_ofJson_of_unknown hknown]
    | true =>
      apply faithful_of_known hknown
      intro arm a ha
      obtain ⟨index, w, hw, rfl⟩ := value_of_mem_inner ha
      exact ih ⟨arm, index⟩ w hw

end Action

namespace Topic

@[simp] theorem readTrigger_written (phrases : List String) :
    readTrigger (.object [("phrases", Json.texts phrases)]) = .ok phrases := by
  have hphrases : field (.object [("phrases", Json.texts phrases)]) "phrases" 0 texts =
      .ok (some phrases) := by
    change (texts (Json.texts phrases)).map some = _
    rw [texts_written]
    rfl
  rw [readTrigger, hphrases]
  rfl

/-- A topic reads as itself once it is written, if its actions do. -/
theorem ofJson_toJson {t : Topic} (h : ∀ a ∈ t.actionList, a.Faithful) :
    ofJson t.toJson = .ok t := by
  obtain ⟨name, description, trigger, actions⟩ := t
  let entries : List (String × Option Json) := [("name", some (.string name)),
    ("description", description.map .string),
    ("triggers", trigger.map fun phrases => .object [("phrases", Json.texts phrases)]),
    ("actions", actions.map fun actions => .array (Action.listToJson actions))]
  have hkeys : (entries.map Prod.fst).Nodup := by simp [entries]
  have hfirst : ("name", some (.string name)) ∈ entries := List.mem_cons_self
  have hname : field (.object (Json.presentFields entries)) "name" 0 text = .ok (some name) :=
    field_written hkeys hfirst 0 rfl
  have hdescription : field (.object (Json.presentFields entries)) "description" 1
      (nullable text) = .ok (description.map some) :=
    nullable_field_written .string hkeys (by simp [entries]) 1 (fun _ _ => rfl) nofun
  have htrigger : field (.object (Json.presentFields entries)) "triggers" 2
      (nullable readTrigger) = .ok (trigger.map some) :=
    nullable_field_written (fun phrases => .object [("phrases", Json.texts phrases)]) hkeys
      (by simp [entries]) 2 (fun phrases _ => readTrigger_written phrases) nofun
  have hactions : field (.object (Json.presentFields entries)) "actions" 3
      (nullable Action.list) = .ok (actions.map some) := by
    apply nullable_field_written (fun actions => .array (Action.listToJson actions)) hkeys
      (by simp [entries]) 3
    · rintro actions rfl
      exact Action.list_listToJson h
    · nofun
  change ofJson (.object (Json.presentFields entries)) = _
  rw [ofJson, hname, hdescription, htrigger, hactions]
  -- an absent field and a present one both pass the check
  cases description <;> cases trigger <;> cases actions <;> rfl

end Topic

namespace Agent

@[simp] theorem metadata_ofJson_toJson (m : Metadata) : Metadata.ofJson m.toJson = .ok m := by
  obtain ⟨language, cloud, version, description⟩ := m
  cases language <;> cases cloud <;> cases version <;> cases description <;> rfl

@[simp] theorem security_ofJson_toJson (s : Security) : Security.ofJson s.toJson = .ok s := by
  obtain ⟨authentication⟩ := s
  cases authentication with
  | none => rfl
  | some a =>
    obtain ⟨mode⟩ := a
    cases mode <;> rfl

/-- An agent reads as itself once it is written, if its actions do. -/
theorem ofJson_toJson {agent : Agent}
    (h : ∀ t ∈ agent.topicList, ∀ a ∈ t.actionList, a.Faithful) :
    ofJson agent.toJson = .ok agent := by
  obtain ⟨name, instructions, greeting, fallback, escalation, capabilities, metadata, security,
    topics⟩ := agent
  let entries : List (String × Option Json) := [("name", name.map .string),
    ("instructions", instructions.map .string), ("greeting", greeting.map .string),
    ("fallbackMessage", fallback.map .string), ("escalationMessage", escalation.map .string),
    ("capabilities", capabilities.map Json.texts), ("metadata", metadata.map Metadata.toJson),
    ("security", security.map Security.toJson),
    ("topics", topics.map fun topics => .array (topics.map Topic.toJson))]
  have hkeys : (entries.map Prod.fst).Nodup := by simp [entries]
  have htext (key : String) (index : Nat) (content : Option String)
      (hm : (key, content.map Json.string) ∈ entries) :
      field (.object (Json.presentFields entries)) key index (nullable text) =
        .ok (content.map some) :=
    nullable_field_written .string hkeys hm index (fun _ _ => rfl) nofun
  have hname := htext "name" 0 name (by simp [entries])
  have hinstructions := htext "instructions" 1 instructions (by simp [entries])
  have hgreeting := htext "greeting" 2 greeting (by simp [entries])
  have hfallback := htext "fallbackMessage" 3 fallback (by simp [entries])
  have hescalation := htext "escalationMessage" 4 escalation (by simp [entries])
  have hcapabilities : field (.object (Json.presentFields entries)) "capabilities" 5
      (nullable texts) = .ok (capabilities.map some) :=
    nullable_field_written Json.texts hkeys (by simp [entries]) 5
      (fun values _ => texts_written values) nofun
  have hmetadata : field (.object (Json.presentFields entries)) "metadata" 6
      (nullable Metadata.ofJson) = .ok (metadata.map some) :=
    nullable_field_written Metadata.toJson hkeys (by simp [entries]) 6
      (fun m _ => metadata_ofJson_toJson m) nofun
  have hsecurity : field (.object (Json.presentFields entries)) "security" 7
      (nullable Security.ofJson) = .ok (security.map some) :=
    nullable_field_written Security.toJson hkeys (by simp [entries]) 7
      (fun s _ => security_ofJson_toJson s) nofun
  have htopics : field (.object (Json.presentFields entries)) "topics" 8
      (nullable (Decode.list Topic.ofJson)) = .ok (topics.map some) := by
    apply nullable_field_written (fun topics => .array (topics.map Topic.toJson)) hkeys
      (by simp [entries]) 8
    · rintro topics rfl
      apply list_written
      intro t ht
      exact Topic.ofJson_toJson (h t ht)
    · nofun
  change ofJson (.object (Json.presentFields entries)) = _
  rw [ofJson_of_reads hname hinstructions hgreeting hfallback hescalation hcapabilities hmetadata
    hsecurity htopics]
  simp

private theorem faithful_of_ofJson {v : Json} {agent : Agent} (h : ofJson v = .ok agent) :
    ∀ t ∈ agent.topicList, ∀ a ∈ t.actionList, a.Faithful := by
  intro t ht a ha
  obtain ⟨_, _, _, _, hread⟩ := value_of_mem_topicList h ht
  obtain ⟨_, x, _, _, rfl⟩ := Topic.value_of_mem_actionList hread ha
  exact Action.faithful_ofJson x

end Agent

namespace Action

private theorem faithful_ofUnknownKind (kind : String) :
    (ofUnknownKind kind).Faithful ↔ kind ∉ knownKinds := by
  have hread : ofJson (ofUnknownKind kind).toJson =
      settle kind (.object [("type", .string kind)]) (known kind [("type", .string kind)]) :=
    ofJson_object _
  rw [Faithful, hread]
  by_cases hkind : kind ∈ knownKinds
  · cases hknown : known kind [("type", .string kind)] with
    | error reason => simp [settle, hkind, ofUnknownKind]
    | ok a =>
      have ha := (kind_of_ofKnownKind hkind hknown).1
      simp only [settle, hkind, not_true_eq_false, iff_false]
      rintro rfl
      cases ha
  · simp [settle, hkind, ofUnknownKind]

end Action

namespace Agent

/-- A specification that was read is written so that the very same one is read again, so what was
written once is written alike ever after. An action made by hand does as well exactly if its type
is unknown. -/
theorem toJson_round_trip (v : Json) (agent : Agent) (h : ofJson v = .ok agent) :
    ofJson agent.toJson = .ok agent ∧
      (∀ w, (ofJson v).map toJson = .ok w → (ofJson w).map toJson = .ok w) ∧
      ∀ kind, Action.ofJson (Action.ofUnknownKind kind).toJson = Action.ofUnknownKind kind ↔
        kind ∉ Action.knownKinds := by
  have hagain := ofJson_toJson (faithful_of_ofJson h)
  refine ⟨hagain, ?_, Action.faithful_ofUnknownKind⟩
  intro w hw
  rw [h] at hw
  cases hw
  rw [hagain]
  rfl

/-- A topic written by position, with a `null` for what it leaves out, an unknown key beside it and
actions that do not fit inside one another. -/
def scribbled : Json := .object [
  ("metadata", .null), ("name", .string "Desk"), ("remark", .int 1),
  ("topics", .array [.array [.string "Billing", .null, .object [],
    .array [Action.tangled, .null, .object [("type", .string "teleport")]]]])]

theorem scribbled_round_trip :
    ∃ agent, ofJson scribbled = .ok agent ∧ ofJson agent.toJson = .ok agent ∧
      Action.ofJson (Action.ofUnknownKind "teleport").toJson = Action.ofUnknownKind "teleport" ∧
      Action.ofJson (Action.ofUnknownKind "escalate").toJson ≠ Action.ofUnknownKind "escalate" := by
  obtain ⟨agent, h⟩ := (fault?_eq_none (ofJson scribbled)).mp (by decide)
  obtain ⟨hagain, _, hkind⟩ := toJson_round_trip scribbled agent h
  exact ⟨agent, h, hagain, (hkind _).mpr (by decide), fun he => (hkind _).mp he (by decide)⟩

end Agent
end Botwright
