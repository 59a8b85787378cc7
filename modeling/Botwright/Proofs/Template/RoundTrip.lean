import Botwright.Proofs.Identifier.Texts
import Botwright.Proofs.Spec.RoundTrip
import Botwright.Template.Reader
import Botwright.Template.Writer

/-!
# Templates round-trip

A document is written so that it reads as itself, and so is each of its nodes, however deep its
condition groups lie inside one another. The kind that is written first leads back to the fields of
that kind, where absent fields are left out.
-/

namespace Botwright

open Decode

namespace Decode

private theorem field_of_read {α : Type} {v x : Json} {name : String} {index : Nat}
    {read : Json → Decoded α} {a : α} (hx : fieldAt? name index v = some x)
    (hread : read x = .ok a) : field v name index read = .ok (some a) := by
  rw [field, hx]
  change (read x).map some = _
  rw [hread]
  rfl

private theorem variant_written {known : List String} {kind : String} (hk : kind ∈ known)
    (type tag : String) (framing : Framing) (fields : Json.Fields) :
    variant type tag framing known (.object ((tag, .string kind) :: fields)) =
      .ok (kind, .object ((tag, .string kind) :: fields)) := by
  rw [variant, Json.field?_cons, if_pos rfl]
  change (variant.variantName framing known (.string kind)).map _ = _
  rw [variant.variantName, if_pos hk]
  rfl

@[simp] theorem word_written (n : UInt32) : word (Json.nat n.toNat) = .ok n := by
  have hbound : (0 : Int) ≤ n.toNat ∧ (n.toNat : Int) < Nat.pow 2 32 :=
    ⟨Int.natCast_nonneg _, Int.ofNat_lt.mpr n.toNat_lt⟩
  rw [Json.nat, word, if_pos hbound, Int.toNat_natCast, UInt32.ofNat_toNat]

@[simp] theorem uuid_written (u : Uuid) : uuid (.string u.text) = .ok u := by
  simp [uuid]

end Decode

@[simp] theorem Activity.ofJson_toJson (a : Activity) : ofJson a.toJson = .ok a := by
  cases a with
  | text s => rfl
  | lines values =>
    have hlines : field (lines values).toJson "text" 0 texts = .ok (some values) :=
      field_of_read rfl (texts_written values)
    rw [toJson] at hlines ⊢
    rw [ofJson, hlines]
    · rfl
    · nofun

namespace Node

private theorem ofTagged_written {kind : String} (hk : kind ∈ kinds) (framing : Framing)
    (fields : Json.Fields) (items : Decoded (Option (List (ConditionItem Node))))
    (otherwise : Decoded (Option (List Node))) :
    ofTagged framing (.object (("kind", .string kind) :: fields)) items otherwise =
      ofKind kind (.object (("kind", .string kind) :: fields)) items otherwise := by
  rw [ofTagged, variant_written hk]

@[simp] theorem sendActivity_ofJson_toJson (framing : Framing) (id : String)
    (outcome : Option String) (activity : Activity) :
    ofJson framing (sendActivity id outcome activity).toJson =
      .ok (sendActivity id outcome activity) := by
  let entries : List (String × Option Json) := [("kind", some (.string "SendActivity")),
    ("id", some (.string id)), ("conversationOutcome", outcome.map .string),
    ("activity", some activity.toJson)]
  have hkeys : (entries.map Prod.fst).Nodup := by simp [entries]
  have hm : ("id", some (.string id)) ∈ entries := by simp [entries]
  have hid : field (.object (Json.presentFields entries)) "id" 0 text = .ok (some id) :=
    field_written hkeys hm 0 rfl
  have houtcome : field (.object (Json.presentFields entries)) "conversationOutcome" 1
      (nullable text) = .ok (outcome.map some) :=
    nullable_field_written .string hkeys (by simp [entries]) 1 (fun _ _ => rfl) nofun
  have hactivity : field (.object (Json.presentFields entries)) "activity" 2 Activity.ofJson =
      .ok (some activity) :=
    field_written hkeys (by simp [entries]) 2 activity.ofJson_toJson
  have hkind : "SendActivity" ∈ kinds := by decide
  change ofTagged framing (.object (Json.presentFields entries))
    (itemsIn (Json.presentFields entries))
    (listIn "elseActions" (Json.presentFields entries)) = _
  refine (ofTagged_written hkind framing _ _ _).trans ?_
  change ofKind "SendActivity" (.object (Json.presentFields entries)) _ _ = _
  rw [ofKind, if_pos rfl, hid, houtcome, hactivity]
  -- an outcome that is left out passes the check as one that is there
  cases outcome <;> rfl

private theorem conditionGroup_ofJson_toJson {items : List (ConditionItem Node)}
    {otherwise : List Node} (hi : itemsOf (itemsToJson items) = .ok items)
    (ho : listOf (listToJson otherwise) = .ok otherwise) (framing : Framing) (id : String) :
    ofJson framing (conditionGroup id items otherwise).toJson =
      .ok (conditionGroup id items otherwise) := by
  have hread : ofJson framing (conditionGroup id items otherwise).toJson =
      ofTagged framing (conditionGroup id items otherwise).toJson
        ((itemsOf (itemsToJson items)).map some) ((listOf (listToJson otherwise)).map some) := rfl
  rw [hread, hi, ho]
  rfl

private theorem item_written {actions : List Node} (h : listOf (listToJson actions) = .ok actions)
    (id condition : String) :
    item (.object [("id", .string id), ("condition", .string condition),
      ("actions", .array (listToJson actions))]) = .ok ⟨id, condition, actions⟩ := by
  change ofItem _ ((listOf (listToJson actions)).map some) = _
  rw [h]
  rfl

mutual

/-- A node is written so that it reads as itself, inside another tagged value or alone. -/
@[simp] theorem ofJson_toJson (framing : Framing) : ∀ n : Node, ofJson framing n.toJson = .ok n
  | sendActivity id outcome activity => sendActivity_ofJson_toJson framing id outcome activity
  | question _ _ _ entity => by cases entity <;> rfl
  | conditionGroup id items otherwise =>
      conditionGroup_ofJson_toJson (itemsOf_itemsToJson items) (listOf_listToJson otherwise)
        framing id
  | setVariable .. => rfl
  | beginDialog .. => rfl
  | invokeConnector .. => rfl
  | invokeFlow .. => rfl
  | searchAndSummarize .. => rfl
  | endConversation _ => rfl
  | cancelAllDialogs _ => rfl

private theorem itemsOf_itemsToJson :
    ∀ items : List (ConditionItem Node), itemsOf (itemsToJson items) = .ok items
  | [] => rfl
  | ⟨id, condition, actions⟩ :: rest => by
      rw [itemsToJson, itemsOf, item_written (listOf_listToJson actions)]
      change (itemsOf (itemsToJson rest)).map _ = _
      rw [itemsOf_itemsToJson rest]
      rfl

private theorem listOf_listToJson : ∀ ns : List Node, listOf (listToJson ns) = .ok ns
  | [] => rfl
  | n :: rest => by
      rw [listToJson, listOf, ofJson_toJson .tagged n]
      change (listOf (listToJson rest)).map _ = _
      rw [listOf_listToJson rest]
      rfl

end
end Node

@[simp] theorem Intent.ofJson_toJson (i : Intent) : ofJson i.toJson = .ok i := by
  have hqueries : field i.toJson "triggerQueries" 2 texts = .ok (some i.queries) :=
    field_of_read rfl (texts_written i.queries)
  rw [ofJson, hqueries]
  rfl

@[simp] theorem Trigger.ofJson_toJson (t : Trigger) : ofJson t.toJson = .ok t := by
  obtain ⟨kind, id, intent, actions⟩ := t
  let entries : List (String × Option Json) := [("kind", some (.string kind.name)),
    ("id", some (.string id)), ("intent", intent.map Intent.toJson),
    ("actions", some (.array (Node.listToJson actions)))]
  have hkeys : (entries.map Prod.fst).Nodup := by simp [entries]
  have hkind : field (.object (Json.presentFields entries)) "kind" 0
      (constant .tagged TriggerKind.name TriggerKind.all) = .ok (some kind) := by
    cases kind <;> rfl
  have hm : ("id", some (.string id)) ∈ entries := by simp [entries]
  have hid : field (.object (Json.presentFields entries)) "id" 1 text = .ok (some id) :=
    field_written hkeys hm 1 rfl
  have hintent : field (.object (Json.presentFields entries)) "intent" 2
      (nullable Intent.ofJson) = .ok (intent.map some) :=
    nullable_field_written Intent.toJson hkeys (by simp [entries]) 2
      (fun i _ => i.ofJson_toJson) nofun
  have hlist : Node.list (.array (Node.listToJson actions)) = .ok actions :=
    Node.listOf_listToJson actions
  have hactions : field (.object (Json.presentFields entries)) "actions" 3 Node.list =
      .ok (some actions) :=
    field_written hkeys (by simp [entries]) 3 hlist
  change ofJson (.object (Json.presentFields entries)) = _
  rw [ofJson, hkind, hid, hintent, hactions]
  cases intent <;> rfl

namespace Dialog

/-- The start behavior and the trigger of a dialog, written as a record of their own. -/
@[simp] theorem readGraph_written (d : Dialog) :
    readGraph (.object (Json.presentFields [
      ("startBehavior", d.startBehavior.map fun b => .string b.name),
      ("beginDialog", some d.trigger.toJson)])) = .ok (d.startBehavior, d.trigger) := by
  obtain ⟨_, _, _, _, _, _, _, _, start, trigger⟩ := d
  let entries : List (String × Option Json) := [
    ("startBehavior", start.map fun b => .string b.name), ("beginDialog", some trigger.toJson)]
  have hkeys : (entries.map Prod.fst).Nodup := by simp [entries]
  have hstart : field (.object (Json.presentFields entries)) "startBehavior" 0
      (nullable (constant .tagged StartBehavior.name StartBehavior.all)) =
        .ok (start.map some) := by
    apply nullable_field_written (fun b : StartBehavior => .string b.name) hkeys
      (by simp [entries]) 0
    · rintro (_ | _) _ <;> rfl
    · nofun
  have htrigger : field (.object (Json.presentFields entries)) "beginDialog" 1 Trigger.ofJson =
      .ok (some trigger) :=
    field_written hkeys (by simp [entries]) 1 trigger.ofJson_toJson
  change readGraph (.object (Json.presentFields entries)) = _
  rw [readGraph, hstart, htrigger]
  cases start <;> rfl

@[simp] theorem ofJson_toJson (d : Dialog) : ofJson d.toJson = .ok d := by
  have hparent : field d.toJson "parentBotId" 2 uuid = .ok (some d.parentBotId) :=
    field_of_read rfl (uuid_written d.parentBotId)
  have hgraph : field d.toJson "dialog" 8 readGraph = .ok (some (d.startBehavior, d.trigger)) :=
    field_of_read rfl d.readGraph_written
  rw [ofJson, hparent, hgraph]
  rfl

end Dialog

@[simp] theorem Instructions.ofJson_toJson (i : Instructions) : ofJson i.toJson = .ok i := by
  have hparent : field i.toJson "parentBotId" 2 uuid = .ok (some i.parentBotId) :=
    field_of_read rfl (uuid_written i.parentBotId)
  have htype : field i.toJson "componentTypeInt" 6 word = .ok (some i.componentType) :=
    field_of_read rfl (word_written i.componentType)
  rw [ofJson, hparent, htype]
  rfl

@[simp] theorem Component.ofJson_toJson (c : Component) : ofJson c.toJson = .ok c := by
  cases c with
  | dialog d =>
    have hkind : variant "Component" "kind" .plain ["DialogComponent", "LegacyOrUnknownComponent"]
        d.toJson = .ok ("DialogComponent", d.toJson) := variant_written (by decide) _ _ _ _
    rw [ofJson, toJson, hkind]
    simp only [bind, Except.bind, if_true, d.ofJson_toJson]
    rfl
  | instructions i =>
    have hkind : variant "Component" "kind" .plain ["DialogComponent", "LegacyOrUnknownComponent"]
        i.toJson = .ok ("LegacyOrUnknownComponent", i.toJson) := variant_written (by decide) _ _ _ _
    have hother : ¬ "LegacyOrUnknownComponent" = "DialogComponent" := by decide
    rw [ofJson, toJson, hkind]
    simp only [bind, Except.bind, if_neg hother, i.ofJson_toJson]
    rfl

@[simp] theorem BotEntity.ofJson_toJson (e : BotEntity) : ofJson e.toJson = .ok e := by
  have hcomponent : field e.toJson "componentIdUnique" 3 uuid = .ok (some e.componentId) :=
    field_of_read rfl (uuid_written e.componentId)
  have hbot : field e.toJson "cdsBotId" 4 uuid = .ok (some e.botId) :=
    field_of_read rfl (uuid_written e.botId)
  have hsynchronization : field e.toJson "synchronizationStatus" 9 readSynchronization =
      .ok (some (e.contentVersion, e.provisioningStatus, e.synchronizationState)) := by
    apply field_of_read rfl
    rw [readSynchronization, field_of_read rfl (word_written e.contentVersion)]
    rfl
  have hlanguage : field e.toJson "language" 11 word = .ok (some e.language) :=
    field_of_read rfl (word_written e.language)
  have hstatus : field e.toJson "status" 14 word = .ok (some e.status) :=
    field_of_read rfl (word_written e.status)
  rw [ofJson, hcomponent, hbot, hsynchronization, hlanguage, hstatus]
  rfl

namespace BotDocument

@[simp] theorem ofJson_toJson (d : BotDocument) : ofJson d.toJson = .ok d := by
  have hentity : field d.toJson "entity" 2 BotEntity.ofJson = .ok (some d.entity) :=
    field_of_read rfl d.entity.ofJson_toJson
  have hcomponents : field d.toJson "components" 3 (list Component.ofJson) =
      .ok (some d.components) :=
    field_of_read rfl (list_written fun c _ => c.ofJson_toJson)
  rw [ofJson, hentity, hcomponents]
  rfl

/-- Every document and every node is written so that it reads as itself, also when it was read from
a value that was written otherwise. -/
theorem toJson_reads_back :
    (∀ d : BotDocument, ofJson d.toJson = .ok d) ∧
      (∀ v d, ofJson v = .ok d → ofJson d.toJson = .ok d) ∧
      (∀ framing (n : Node), Node.ofJson framing n.toJson = .ok n) ∧
      ∀ framing v n, Node.ofJson framing v = .ok n → Node.ofJson framing n.toJson = .ok n := by
  refine ⟨ofJson_toJson, fun _ d _ => d.ofJson_toJson, Node.ofJson_toJson, ?_⟩
  exact fun framing _ n _ => n.ofJson_toJson framing

def positionalGroup : Json := .array [.string "ConditionGroup", .string "group",
  .array [.array [.string "item", .string "=Topic.Paid", .array [.array [.int 8, .string "end"]]]]]

/-- A document written by position, with a `null` for the intent of its only dialog. -/
def positional : Json :=
  let id := Json.string "0000000000000000000000000000000A"
  .array [.string "BotDefinition", .string "Default",
    .array [.array [.bool false], .string "Desk", .string "af_Desk", id, id,
      .string "ChatbotReaders", .string "Integrated", .string "Always",
      .array [.array [.bool true], .array [.bool false]],
      .array [.int 1, .array [.string "NotProvisioned", .string "NotStarted"]],
      .string "default-2.1.0", .int 1033, .string "PowerVirtualAgents", .string "Active", .int 1],
    .array [.array [.string "DialogComponent", .array [.bool false], .string "Billing", id,
      .string "", .object [], .string "Active", .string "Active", .string "af_topic_Billing",
      .array [.null, .array [.string "OnRecognizedIntent", .string "main", .null,
        .array [positionalGroup]]]]]]

theorem positional_reads_back :
    ∃ d n, ofJson positional = .ok d ∧ ofJson d.toJson = .ok d ∧
      Node.ofJson .plain positionalGroup = .ok n ∧ Node.ofJson .plain n.toJson = .ok n := by
  obtain ⟨d, hd⟩ := (fault?_eq_none (ofJson positional)).mp (by decide)
  obtain ⟨n, hn⟩ := (fault?_eq_none (Node.ofJson .plain positionalGroup)).mp (by decide)
  obtain ⟨_, hagain, _, hnode⟩ := toJson_reads_back
  exact ⟨d, n, hd, hagain positional d hd, hn, hnode .plain positionalGroup n hn⟩

end BotDocument
end Botwright
