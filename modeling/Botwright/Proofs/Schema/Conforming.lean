import Botwright.Schema.AgentSpec
import Botwright.Schema.Validation

/-!
# Conforming values

The violations by a value move along with its place and depend on it in no other way. So a value
conforms to a schema or does not, and what conforms is told for each form of schema.
-/

namespace Botwright.Schema

/-- A violation seen from further up. -/
def Violation.below (front : Json.Pointer) (x : Violation) : Violation :=
  { x with place := front ++ x.place }

/-- What is found at a place moves along with the place. -/
def Relative (found : Json.Pointer → List Violation) : Prop :=
  ∀ front place, found (front ++ place) = (found place).map (Violation.below front)

namespace Relative

variable {found other : Json.Pointer → List Violation}

theorem nil : Relative fun _ => [] := fun _ _ => rfl

theorem messages (texts : List String) : Relative fun place => texts.map (⟨place, ·⟩) := by
  intro front place
  rw [List.map_map]
  rfl

theorem append (h : Relative found) (ho : Relative other) :
    Relative fun place => found place ++ other place := by
  intro front place
  simp only [h front place, ho front place, List.map_append]

theorem flatMap {α : Type} {found : α → Json.Pointer → List Violation} (items : List α)
    (h : ∀ a, Relative (found a)) : Relative fun place => items.flatMap (found · place) := by
  intro front place
  simp only [h _ front place, List.map_flatMap]

theorem under (h : Relative found) (step : String) :
    Relative fun place => found (place ++ [step]) := by
  intro front place
  simp [h front (place ++ [step])]

end Relative

private theorem relative_check_plain (root schema : Json) {v : Json}
    (hobject : ∀ fields, v = .object fields → False) (harray : ∀ row, v = .array row → False) :
    Relative (check root schema · v) := by
  cases v with
  | object fields => exact absurd rfl (hobject fields)
  | array row => exact absurd rfl (harray row)
  | _ => exact .flatMap _ fun rule => .messages _

mutual

private theorem relative_check (root schema v : Json) : Relative (check root schema · v) := by
  cases v with
  | object fields =>
    simp only [check]
    apply Relative.flatMap
    intro rule
    -- only `properties` looks at the fields in an order of its own
    refine ((Relative.messages _).append ?_).append (.messages _)
    cases rule with
    | properties schemas =>
      exact .flatMap schemas fun p => relative_checkField root p.1 p.2 fields
    | _ => exact relative_checkMembers root _ fields
  | array row =>
    simp only [check]
    apply Relative.flatMap
    intro rule
    refine (Relative.messages _).append ?_
    cases rule with
    | items sub => exact relative_checkItems root sub 0 row
    | _ => exact .nil
  | _ => exact relative_check_plain root schema (by simp) (by simp)

private theorem relative_checkItems (root schema : Json) (index : Nat) (row : List Json) :
    Relative (checkItems root schema · index row) := by
  cases row with
  | nil => exact .nil
  | cons v rest =>
    exact ((relative_check root schema v).under (toString index)).append
      (relative_checkItems root schema (index + 1) rest)

private theorem relative_checkMembers (root : Json) (rule : Rule) (fields : List (String × Json)) :
    Relative (checkMembers root rule · fields) := by
  cases fields with
  | nil => exact .nil
  | cons field rest =>
    obtain ⟨k, v⟩ := field
    refine Relative.append ?_ (relative_checkMembers root rule rest)
    cases rule.memberSchema? k with
    | none => exact .nil
    | some sub => exact (relative_check root sub v).under k

private theorem relative_checkField (root : Json) (key : String) (schema : Json)
    (fields : List (String × Json)) : Relative (checkField root key schema · fields) := by
  cases fields with
  | nil => exact .nil
  | cons field rest =>
    obtain ⟨k, v⟩ := field
    by_cases hk : k = key
    · simp only [checkField, if_pos hk]
      exact (relative_check root schema v).under key
    · simp only [checkField, if_neg hk]
      exact relative_checkField root key schema rest

end

private theorem check_congr {root schema other : Json} (h : rules root schema = rules root other)
    (place : Json.Pointer) (v : Json) : check root schema place v = check root other place v := by
  cases v <;> simp only [check, h]

theorem checkMembers_eq_nil {root : Json} {rule : Rule} (h : ∀ k, rule.memberSchema? k = none)
    (place : Json.Pointer) (fields : Json.Fields) : checkMembers root rule place fields = [] := by
  induction fields with
  | nil => rfl
  | cons head rest ih =>
    obtain ⟨k, v⟩ := head
    simp only [checkMembers, h k, ih, List.append_nil]

namespace AgentSpec

/-- A value without violations, as a part of a specification. -/
def Conforms (schema v : Json) : Prop := check document schema [] v = []

/-- The fields with a schema of their own conform to it. -/
def FieldsConform (properties fields : Json.Fields) : Prop :=
  ∀ p ∈ properties, ∀ v, Json.field? p.1 fields = some v → Conforms p.2 v

private theorem check_eq_nil (schema : Json) (place : Json.Pointer) (v : Json) :
    check document schema place v = [] ↔ Conforms schema v := by
  have hplace : check document schema (place ++ []) v =
      (check document schema [] v).map (Violation.below place) :=
    relative_check document schema v place []
  rw [List.append_nil] at hplace
  rw [hplace, List.map_eq_nil_iff, Conforms]

private theorem checkField_eq_nil (key : String) (schema : Json) (place : Json.Pointer)
    (fields : Json.Fields) :
    checkField document key schema place fields = [] ↔
      ∀ v, Json.field? key fields = some v → Conforms schema v := by
  induction fields with
  | nil => simp [checkField, Json.field?]
  | cons head rest ih =>
    obtain ⟨k, v⟩ := head
    by_cases hk : k = key
    · simp [checkField, hk, check_eq_nil]
    · simp [checkField, hk, ih]

private theorem checkItems_eq_nil (schema : Json) (place : Json.Pointer) (index : Nat)
    (row : List Json) :
    checkItems document schema place index row = [] ↔ ∀ v ∈ row, Conforms schema v := by
  induction row generalizing index with
  | nil => simp [checkItems]
  | cons v rest ih =>
    simp [checkItems, check_eq_nil, ih]

private theorem conforms_congr {schema other : Json}
    (h : rules document schema = rules document other) (v : Json) :
    Conforms schema v ↔ Conforms other v := by
  rw [Conforms, check_congr h, Conforms]

@[simp] theorem conforms_text (v : Json) : Conforms text v ↔ ∃ s, v = .string s := by
  have hrules : rules document text = [.types ["string"]] := rfl
  cases v <;> simp [Conforms, check, hrules, Rule.messages, Rule.lateMessages, hasType]

@[simp] theorem conforms_nonEmptyText (v : Json) :
    Conforms nonEmptyText v ↔ ∃ s, v = .string s ∧ s ≠ "" := by
  have hrules : rules document nonEmptyText = [.minLength 1, .types ["string"]] := rfl
  cases v with
  | string s =>
    have hlength : s.length = 0 ↔ s = "" := String.length_eq_zero_iff
    simp [Conforms, check, hrules, Rule.messages, hasType, hlength]
  | _ => simp [Conforms, check, hrules, Rule.messages, Rule.lateMessages, hasType]

theorem conforms_listOf (schema v : Json) :
    Conforms (listOf schema) v ↔ ∃ items, v = .array items ∧ ∀ x ∈ items, Conforms schema x := by
  have hrules : rules document (listOf schema) = [.items schema, .types ["array"]] := rfl
  cases v <;>
    simp [Conforms, check, hrules, Rule.messages, Rule.lateMessages, hasType]
  exact checkItems_eq_nil schema [] 0 _

@[simp] theorem checkMembers_types (names : List String) (fields : Json.Fields) :
    checkMembers document (.types names) [] fields = [] :=
  checkMembers_eq_nil (fun _ => rfl) [] fields

@[simp] theorem checkMembers_required (keys : List String) (fields : Json.Fields) :
    checkMembers document (.required keys) [] fields = [] :=
  checkMembers_eq_nil (fun _ => rfl) [] fields

@[simp] theorem conforms_recordOf (properties : Json.Fields) (v : Json) :
    Conforms (recordOf properties) v ↔
      ∃ fields, v = .object fields ∧ FieldsConform properties fields := by
  have hrules : rules document (recordOf properties) =
      [.properties properties, .types ["object"]] := rfl
  cases v <;>
    simp [Conforms, check, hrules, Rule.messages, Rule.lateMessages, hasType,
      checkMembers_types, checkField_eq_nil, FieldsConform]

private theorem conforms_of_rules {schema : Json} {required : String} {properties : Json.Fields}
    (hrules : rules document schema =
      [.properties properties, .required [required], .types ["object"]]) (v : Json) :
    Conforms schema v ↔ ∃ fields, v = .object fields ∧ FieldsConform properties fields ∧
      ∃ x, Json.field? required fields = some x := by
  cases v <;>
    simp [Conforms, check, hrules, Rule.messages, Rule.lateMessages, hasType,
      checkMembers_types, checkMembers_required, checkField_eq_nil, FieldsConform,
      Option.ne_none_iff_exists']

theorem conforms_recordWith (required : String) (properties : Json.Fields) (v : Json) :
    Conforms (recordWith required properties) v ↔
      ∃ fields, v = .object fields ∧ FieldsConform properties fields ∧
        ∃ x, Json.field? required fields = some x :=
  conforms_of_rules rfl v

/-- The references of the schema lead to its definitions. -/
theorem conforms_definition {name : String} {schema : Json} (h : (name, schema) ∈ definitions)
    (v : Json) : Conforms (definition name) v ↔ Conforms schema v := by
  apply conforms_congr
  simp only [definitions, List.mem_cons, List.not_mem_nil, or_false, Prod.mk.injEq] at h
  obtain ⟨rfl, rfl⟩ | ⟨rfl, rfl⟩ | ⟨rfl, rfl⟩ := h <;> rfl

theorem conforms_document (v : Json) :
    Conforms document v ↔ ∃ fields, v = .object fields ∧ FieldsConform properties fields ∧
      ∃ x, Json.field? "name" fields = some x :=
  conforms_of_rules rfl v

theorem conforms_actions (v : Json) :
    Conforms (definition "actions") v ↔
      ∃ items, v = .array items ∧ ∀ x ∈ items, Conforms (definition "action") x := by
  have hm : ("actions", listOf (definition "action")) ∈ definitions := by simp [definitions]
  rw [conforms_definition hm, conforms_listOf]

theorem conforms_action (v : Json) :
    Conforms (definition "action") v ↔ ∃ fields, v = .object fields ∧
      FieldsConform [("conditions", listOf branch), ("else", definition "actions"),
        ("type", text)] fields ∧ ∃ x, Json.field? "type" fields = some x := by
  have hm : ("action", action) ∈ definitions := by simp [definitions]
  rw [conforms_definition hm, action, conforms_recordWith]

theorem conforms_topic (v : Json) :
    Conforms (definition "topic") v ↔ ∃ fields, v = .object fields ∧
      FieldsConform [("actions", definition "actions"), ("description", text),
        ("name", nonEmptyText), ("triggers", recordOf [("phrases", listOf text)])] fields ∧
      ∃ x, Json.field? "name" fields = some x := by
  have hm : ("topic", topic) ∈ definitions := by simp [definitions]
  rw [conforms_definition hm, topic, conforms_recordWith]

end AgentSpec
end Botwright.Schema
