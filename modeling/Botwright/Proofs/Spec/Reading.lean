import Botwright.Proofs.Decode.Record
import Botwright.Spec.Reader

/-!
# How an action is read

The lists inside an action are fields like any other: the branches are a list of records, the
alternative a list of actions that may be `null`, and a list of actions never fails for what is in
it.
-/

namespace Botwright.Action

open Decode

@[simp] theorem entries_eq_map (items : List Json) : entries items = items.map ofJson := by
  induction items with
  | nil => rfl
  | cons v rest ih => rw [entries, ih, List.map_cons]

@[simp] theorem list_array (items : List Json) : list (.array items) = .ok (items.map ofJson) := by
  simp [list]

private theorem listIn_eq_field (key : String) (fields : Json.Fields) (index : Nat) :
    listIn key fields = field (.object fields) key index list := by
  induction fields with
  | nil => rfl
  | cons head rest ih =>
    obtain ⟨k, v⟩ := head
    by_cases hk : k = key
    · simp [listIn, field, fieldAt?, hk]
    · simp [listIn, field, fieldAt?, hk, ih]

private theorem listAt_eq_field (key : String) (items : List Json) (index : Nat) :
    listAt index items = field (.array items) key index list := by
  induction items generalizing index with
  | nil => cases index <;> rfl
  | cons v rest ih =>
    cases index with
    | zero => rfl
    | succ index => exact ih index

theorem branch_eq (v : Json) : branch v = ofBranch v (field v "then" 1 list) := by
  cases v with
  | object fields => rw [branch, listIn_eq_field]
  | array items => rw [branch, listAt_eq_field]
  | _ => rfl

private theorem branchItems_eq_mapM (items : List Json) :
    branchItems items = items.mapM branch := by
  induction items with
  | nil => rfl
  | cons v rest ih =>
    rw [branchItems, mapM_cons_eq, ih]
    cases branch v <;> rfl

private theorem branches_eq_list (v : Json) : branches v = Decode.list branch v := by
  cases v with
  | array items => exact branchItems_eq_mapM items
  | _ => rfl

private theorem branchesIn_eq_field (fields : Json.Fields) (index : Nat) :
    branchesIn fields = field (.object fields) "conditions" index (Decode.list branch) := by
  induction fields with
  | nil => rfl
  | cons head rest ih =>
    obtain ⟨k, v⟩ := head
    by_cases hk : k = "conditions"
    · simp [branchesIn, field, fieldAt?, hk, branches_eq_list]
    · simp [branchesIn, field, fieldAt?, hk, ih]

private theorem alternative_eq_field (fields : Json.Fields) (index : Nat) :
    alternative fields (listIn "else" fields) =
      field (.object fields) "else" index (nullable list) := by
  rw [alternative, listIn_eq_field "else" fields index, field, field, fieldAt?]
  cases Json.field? "else" fields with
  | none => rfl
  | some v => cases v <;> rfl

def typeOf? (v : Json) : Option String := (v.get? "type").bind Json.text?

/-- The fields of an action of a known type. -/
def known (kind : String) (fields : Json.Fields) : Decoded Action :=
  ofKnownKind kind fields (field (.object fields) "conditions" 0 (Decode.list branch))
    (field (.object fields) "else" 1 (nullable list))

theorem ofJson_object (fields : Json.Fields) :
    ofJson (.object fields) =
      match typeOf? (.object fields) with
      | some kind => settle kind (.object fields) (known kind fields)
      | none => unrecognized missingKind (.object fields) := by
  rw [ofJson, branchesIn_eq_field fields 0, alternative_eq_field fields 1, typeOf?, Json.get?]
  cases Json.field? "type" fields with
  | none => rfl
  | some v => cases v <;> rfl

theorem ofJson_of_untyped {v : Json} (h : typeOf? v = none) :
    ofJson v = unrecognized missingKind v := by
  cases v with
  | object fields => rw [ofJson_object, h]
  | _ => rfl

theorem ofJson_of_typed {v : Json} {kind : String} (h : typeOf? v = some kind) :
    ∃ fields, v = .object fields ∧ ofJson v = settle kind v (known kind fields) := by
  cases v with
  | object fields => exact ⟨fields, rfl, by rw [ofJson_object, h]⟩
  | _ => cases h

/-- Of the two lists of a condition the branches are looked at first. -/
theorem ofKnownKind_condition (fields : Json.Fields)
    (branches : Decoded (Option (List (Branch Action))))
    (otherwise : Decoded (Option (Option (List Action)))) :
    ofKnownKind "condition" fields branches otherwise =
      match branches, otherwise with
      | .error e, _ => .error e
      | .ok _, .error e => .error e
      | .ok branches, .ok otherwise => .ok (.condition (branches.getD []) otherwise.join) := by
  -- the faults are ranked by key, so that of the branches comes first
  have horder : Json.keyBefore "else" "conditions" = false := by decide
  cases branches <;> cases otherwise <;>
    simp [ofKnownKind, checkRecord, checkObject, leastFault, firstMissing, slot, horder, bind,
      Except.bind, Except.map, pure, Except.pure]

theorem ofKnownKind_congr {kind : String} (hkind : kind ≠ "condition")
    {fields others : Json.Fields}
    (hfields : ∀ key, key ≠ "conditions" → key ≠ "else" →
      Json.field? key others = Json.field? key fields)
    (b b' : Decoded (Option (List (Branch Action))))
    (o o' : Decoded (Option (Option (List Action)))) :
    ofKnownKind kind others b' o' = ofKnownKind kind fields b o := by
  have hread {α : Type} (key : String) (index : Nat) (read : Json → Decoded α)
      (hc : key ≠ "conditions") (he : key ≠ "else") :
      field (.object others) key index read = field (.object fields) key index read := by
    rw [field, fieldAt?, hfields key hc he]
    rfl
  simp only [ofKnownKind, if_neg hkind]
  simp [hread, checkRecord]

theorem kind_of_ofKnownKind {kind : String} (hkind : kind ∈ knownKinds) {fields : Json.Fields}
    {branches : Decoded (Option (List (Branch Action)))}
    {otherwise : Decoded (Option (Option (List Action)))} {a : Action}
    (h : ofKnownKind kind fields branches otherwise = .ok a) :
    a.isKnown = true ∧ a.kind = kind := by
  simp only [knownKinds, List.mem_cons, List.not_mem_nil, or_false] at hkind
  rcases hkind with rfl | rfl | rfl | rfl | rfl | rfl | rfl | rfl | rfl | rfl
  all_goals
    simp only [ofKnownKind, String.reduceEq, ↓reduceIte, pure, Except.pure, bind_eq_ok,
      Except.ok.injEq, exists_and_right] at h
  · obtain ⟨_, _, _, rfl⟩ := h
    exact ⟨rfl, rfl⟩
  · obtain ⟨_, _, _, _, _, _, _, rfl⟩ := h
    exact ⟨rfl, rfl⟩
  · obtain ⟨_, _, _, _, _, rfl⟩ := h
    exact ⟨rfl, rfl⟩
  · obtain ⟨_, _, _, _, _, rfl⟩ := h
    exact ⟨rfl, rfl⟩
  · obtain ⟨_, _, _, rfl⟩ := h
    exact ⟨rfl, rfl⟩
  · obtain ⟨_, _, _, _, _, _, _, rfl⟩ := h
    exact ⟨rfl, rfl⟩
  · obtain ⟨_, _, _, _, _, rfl⟩ := h
    exact ⟨rfl, rfl⟩
  all_goals
    subst h
    exact ⟨rfl, rfl⟩

theorem ofJson_condition {fields : Json.Fields} {branches : Option (List (Branch Action))}
    {otherwise : Option (Option (List Action))}
    (htype : typeOf? (.object fields) = some "condition")
    (hbranches : field (.object fields) "conditions" 0 (Decode.list branch) = .ok branches)
    (hotherwise : field (.object fields) "else" 1 (nullable list) = .ok otherwise) :
    ofJson (.object fields) = condition (branches.getD []) otherwise.join := by
  have hkind : "condition" ∈ knownKinds := by decide
  have hknown : known "condition" fields =
      .ok (condition (branches.getD []) otherwise.join) := by
    rw [known, ofKnownKind_condition, hbranches, hotherwise]
  rw [ofJson_object, htype]
  simp only [settle, if_pos hkind, hknown]

theorem settle_of_isKnown {kind : String} {body : Json} {read : Decoded Action}
    (h : (settle kind body read).isKnown = true) :
    kind ∈ knownKinds ∧ read = .ok (settle kind body read) := by
  by_cases hkind : kind ∈ knownKinds
  · cases read with
    | error reason => simp [settle, hkind, isKnown] at h
    | ok a => simp [settle, hkind]
  · simp [settle, hkind, isKnown] at h

end Botwright.Action
