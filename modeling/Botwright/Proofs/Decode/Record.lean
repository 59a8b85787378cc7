import Botwright.Decode.Record
import Mathlib.Data.List.Basic

/-!
# Faults of records

Reading a record fails exactly when the check of its fields does, and the check sees no more of a
field than its fault and whether it is there. So a record reads with the same fault after a field
is replaced by another that reads as well.
-/

namespace Botwright

namespace Json

def modifyField (key : String) (f : Json → Json) : Fields → Fields
  | [] => []
  | (k, v) :: rest => if k = key then (k, f v) :: rest else (k, v) :: modifyField key f rest

@[simp] theorem field?_modifyField_self (key : String) (f : Json → Json) (fields : Fields) :
    field? key (modifyField key f fields) = (field? key fields).map f := by
  induction fields with
  | nil => rfl
  | cons head rest ih => grind [modifyField]

theorem field?_modifyField_ne {key other : String} (h : other ≠ key) (f : Json → Json)
    (fields : Fields) : field? other (modifyField key f fields) = field? other fields := by
  induction fields with
  | nil => rfl
  | cons head rest ih => grind [modifyField]

def mapItems (g : List Json → List Json) : Json → Json
  | .array items => .array (g items)
  | v => v

private theorem field?_presentFields_cons_ne {k name : String} (h : k ≠ name) (o : Option Json)
    (rest : List (String × Option Json)) :
    field? name (presentFields ((k, o) :: rest)) = field? name (presentFields rest) := by
  cases o with
  | none => rfl
  | some v =>
    change field? name ((k, v) :: presentFields rest) = _
    simp [h]

private theorem field?_presentFields_of_notMem {name : String}
    {entries : List (String × Option Json)} (h : name ∉ entries.map Prod.fst) :
    field? name (presentFields entries) = none := by
  induction entries with
  | nil => rfl
  | cons head rest ih =>
    rw [List.map_cons, List.mem_cons, not_or] at h
    rw [field?_presentFields_cons_ne (Ne.symm h.1), ih h.2]

theorem field?_presentFields {name : String} {content : Option Json}
    {entries : List (String × Option Json)} (hn : (entries.map Prod.fst).Nodup)
    (hm : (name, content) ∈ entries) : field? name (presentFields entries) = content := by
  induction entries with
  | nil => exact absurd hm List.not_mem_nil
  | cons head rest ih =>
    obtain ⟨hk, hrest⟩ := List.nodup_cons.mp hn
    rcases List.mem_cons.mp hm with rfl | hm
    · cases content with
      | none =>
        change field? name (presentFields rest) = none
        exact field?_presentFields_of_notMem hk
      | some v =>
        change field? name ((name, v) :: presentFields rest) = _
        simp
    · have hne : head.1 ≠ name := fun he => hk (List.mem_map.mpr ⟨_, hm, he.symm⟩)
      rw [field?_presentFields_cons_ne hne, ih hrest hm]

end Json

namespace Decode

/-- Why a value does not read, if it does not. -/
def fault? {α : Type} : Decoded α → Option DecodeError
  | .error e => some e
  | .ok _ => none

@[simp] theorem fault?_eq_none {α : Type} (read : Decoded α) :
    fault? read = none ↔ ∃ a, read = .ok a := by
  cases read <;> simp [fault?]

@[simp] theorem fault?_eq_some {α : Type} (read : Decoded α) (e : DecodeError) :
    fault? read = some e ↔ read = .error e := by
  cases read <;> simp [fault?]

@[simp] theorem fault?_map {α β : Type} (f : α → β) (read : Decoded α) :
    fault? (read.map f) = fault? read := by
  cases read <;> rfl

theorem bind_eq_ok {α β : Type} {read : Decoded α} {next : α → Decoded β} {b : β} :
    (read >>= next) = .ok b ↔ ∃ a, read = .ok a ∧ next a = .ok b := by
  cases read <;> simp [bind, Except.bind]

theorem field_eq_ok {α : Type} {v : Json} {name : String} {index : Nat} {read : Json → Decoded α}
    {content : Option α} (h : field v name index read = .ok content) :
    (fieldAt? name index v = none ∧ content = none) ∨
      ∃ x a, fieldAt? name index v = some x ∧ read x = .ok a ∧ content = some a := by
  rw [field] at h
  cases hv : fieldAt? name index v with
  | none =>
    rw [hv] at h
    cases h
    exact Or.inl ⟨rfl, rfl⟩
  | some x =>
    rw [hv] at h
    change (read x).map some = .ok content at h
    cases hx : read x with
    | error e =>
      rw [hx] at h
      cases h
    | ok a =>
      rw [hx] at h
      cases h
      exact Or.inr ⟨x, a, rfl, hx, rfl⟩

@[simp] theorem present_eq_ok {α : Type} {name : String} {read : Decoded (Option α)} {a : α} :
    present name read = .ok a ↔ read = .ok (some a) := by
  cases read with
  | error e => simp [present]
  | ok content => cases content <;> simp [present]

/-! ## Checks -/

@[simp] theorem fault?_slot {α : Type} (name : String) (need : Need) (read : Decoded (Option α)) :
    fault? (slot name need read).found = fault? read :=
  fault?_map _ _

private theorem leastFault_eq_none (slots : List Slot) :
    leastFault slots = none ↔ ∀ s ∈ slots, fault? s.found = none := by
  induction slots with
  | nil => simp [leastFault]
  | cons s rest ih =>
    rw [List.forall_mem_cons, ← ih]
    cases hs : s.found with
    | ok b => simp [leastFault, hs, fault?]
    | error e =>
      cases hr : leastFault rest with
      | none => simp [leastFault, hs, hr, fault?]
      | some other =>
        simp only [leastFault, hs, hr, fault?]
        split <;> simp

private theorem firstMissing_eq_none (slots : List Slot) :
    firstMissing slots = none ↔ ∀ s ∈ slots, s.need = .required → s.found ≠ .ok false := by
  induction slots with
  | nil => simp [firstMissing]
  | cons s rest ih =>
    rw [List.forall_mem_cons, ← ih, firstMissing]
    split <;> simp_all

/-- An object passes when every field reads and no required one is missing. -/
theorem checkRecord_object_eq_ok (framing : Framing) (record : String) (slots : List Slot)
    (fields : Json.Fields) :
    checkRecord framing record slots (.object fields) = .ok () ↔
      ∀ s ∈ slots, fault? s.found = none ∧ (s.need = .required → s.found ≠ .ok false) := by
  rw [forall₂_and, ← leastFault_eq_none, ← firstMissing_eq_none]
  change checkObject slots = .ok () ↔ _
  cases hl : leastFault slots with
  | some fault => simp [checkObject, hl]
  | none =>
    cases hm : firstMissing slots <;> simp [checkObject, hl, hm]

private theorem found_of_checkArrayFrom {record : String} {size index : Nat} {slots : List Slot}
    (h : checkArrayFrom record size index slots = .ok ()) :
    ∀ s ∈ slots, fault? s.found = none ∧ (s.need = .required → s.found ≠ .ok false) := by
  induction slots generalizing index with
  | nil => exact fun s hs => absurd hs List.not_mem_nil
  | cons s rest ih =>
    rw [checkArrayFrom] at h
    rw [List.forall_mem_cons]
    split at h
    · cases h
    · exact ⟨by simp_all [fault?], ih h⟩
    · exact ⟨by simp_all [fault?], ih h⟩
    · cases h

theorem found_of_checkRecord {framing : Framing} {record : String} {slots : List Slot} {v : Json}
    (h : checkRecord framing record slots v = .ok ()) :
    ∀ s ∈ slots, fault? s.found = none ∧ (s.need = .required → s.found ≠ .ok false) := by
  cases v with
  | object fields => exact (checkRecord_object_eq_ok framing record slots fields).mp h
  | array items =>
    rw [checkRecord] at h
    split at h
    · cases h
    · exact found_of_checkArrayFrom ‹_›
  | _ => cases h

theorem read_of_checkRecord {α : Type} {framing : Framing} {record : String} {slots : List Slot}
    {v : Json} (h : checkRecord framing record slots v = .ok ()) {name : String} {need : Need}
    {read : Decoded (Option α)} (hs : slot name need read ∈ slots) :
    ∃ content, read = .ok content ∧ (need = .required → ∃ a, content = some a) := by
  obtain ⟨hfault, hthere⟩ := found_of_checkRecord h _ hs
  cases read with
  | error e => cases hfault
  | ok content =>
    refine ⟨content, rfl, ?_⟩
    intro hneed
    cases content with
    | none => exact absurd rfl (hthere hneed)
    | some a => exact ⟨a, rfl⟩

theorem fault?_of_check {α : Type} {check : Decoded Unit} {next : Unit → Decoded α}
    (h : check = .ok () → ∃ a, next () = .ok a) : fault? (check >>= next) = fault? check := by
  cases check with
  | error e => rfl
  | ok u =>
    obtain ⟨a, ha⟩ := h rfl
    exact congrArg fault? ha

/-! ## Replacing a field -/

/-- Applies a function to a field of a record, by name in an object and by position in an array. -/
def modifyAt (name : String) (index : Nat) (f : Json → Json) : Json → Json
  | .object fields => .object (Json.modifyField name f fields)
  | .array items => .array (items.modify index f)
  | v => v

@[simp] theorem fieldAt?_modifyAt_self (name : String) (index : Nat) (f : Json → Json) (v : Json) :
    fieldAt? name index (modifyAt name index f v) = (fieldAt? name index v).map f := by
  cases v with
  | object fields => exact Json.field?_modifyField_self name f fields
  | array items => exact List.getElem?_modify_eq f index items
  | _ => rfl

private theorem fieldAt?_modifyAt_ne {name other : String} {index place : Nat} (hn : other ≠ name)
    (hp : place ≠ index) (f : Json → Json) (v : Json) :
    fieldAt? other place (modifyAt name index f v) = fieldAt? other place v := by
  cases v with
  | object fields => exact Json.field?_modifyField_ne hn f fields
  | array items => exact List.getElem?_modify_ne f items (Ne.symm hp)
  | _ => rfl

theorem checkRecord_modifyAt (framing : Framing) (record : String) (slots : List Slot)
    (name : String) (index : Nat) (f : Json → Json) (v : Json) :
    checkRecord framing record slots (modifyAt name index f v) =
      checkRecord framing record slots v := by
  cases v with
  | array items => simp only [modifyAt, checkRecord, List.length_modify]
  | _ => rfl

theorem field_modifyAt_ne {α : Type} {name other : String} {index place : Nat}
    (hn : other ≠ name) (hp : place ≠ index) (f : Json → Json) (v : Json)
    (read : Json → Decoded α) :
    field (modifyAt name index f v) other place read = field v other place read := by
  rw [field, fieldAt?_modifyAt_ne hn hp, field]

theorem fault?_field_modifyAt_self {α : Type} (name : String) (index : Nat) (f : Json → Json)
    (v : Json) (read : Json → Decoded α) (h : ∀ x, fault? (read (f x)) = fault? (read x)) :
    fault? (field (modifyAt name index f v) name index read) =
      fault? (field v name index read) := by
  rw [field, fieldAt?_modifyAt_self, field]
  cases fieldAt? name index v with
  | none => rfl
  | some x =>
    change fault? ((read (f x)).map some) = fault? ((read x).map some)
    simp [h]

/-- A slot shows no more of its field than the fault, so it stays as it is under a replacement
that keeps the fault. -/
theorem slot_modifyAt_self {α : Type} (need : Need) (name : String) (index : Nat)
    (f : Json → Json) (v : Json) (read : Json → Decoded α)
    (h : ∀ x, fault? (read (f x)) = fault? (read x)) :
    slot name need (field (modifyAt name index f v) name index read) =
      slot name need (field v name index read) := by
  rw [field, fieldAt?_modifyAt_self, field]
  cases fieldAt? name index v with
  | none => rfl
  | some x =>
    have hx := h x
    change slot name need ((read (f x)).map some) = slot name need ((read x).map some)
    cases hf : read (f x) <;> cases hr : read x <;> simp_all [fault?, slot, Except.map]

theorem nullable_of_ne_null {α : Type} (read : Json → Decoded α) {v : Json} (h : v ≠ .null) :
    nullable read v = (read v).map some := by
  cases v with
  | null => exact absurd rfl h
  | _ => rfl

theorem nullable_eq_none {α : Type} {read : Json → Decoded α} {v : Json}
    (h : nullable read v = .ok none) : v = .null := by
  by_contra hv
  rw [nullable_of_ne_null read hv] at h
  cases hr : read v <;> rw [hr] at h <;> cases h

theorem nullable_eq_some {α : Type} {read : Json → Decoded α} {v : Json} {a : α}
    (h : nullable read v = .ok (some a)) : read v = .ok a := by
  by_cases hv : v = .null
  · subst hv
    cases h
  · rw [nullable_of_ne_null read hv] at h
    cases hr : read v <;> rw [hr] at h <;> cases h
    rfl

theorem read_of_join {α : Type} {v : Json} {name : String} {index : Nat}
    {read : Json → Decoded α} {content : Option (Option α)} {a : α}
    (h : field v name index (nullable read) = .ok content) (ha : content.join = some a) :
    ∃ x, fieldAt? name index v = some x ∧ read x = .ok a := by
  obtain rfl := Option.join_eq_some_iff.mp ha
  rcases field_eq_ok h with ⟨_, hnone⟩ | ⟨x, b, hx, hb, hsome⟩
  · cases hnone
  · cases hsome
    exact ⟨x, hx, nullable_eq_some hb⟩

theorem mem_getD {α : Type} {content : Option (List α)} {a : α} (h : a ∈ content.getD []) :
    ∃ items, content = some items ∧ a ∈ items := by
  cases content with
  | none => exact absurd h List.not_mem_nil
  | some items => exact ⟨items, rfl, h⟩

theorem fault?_nullable {α : Type} (read : Json → Decoded α) {v w : Json}
    (hnull : v = .null ↔ w = .null) (h : fault? (read v) = fault? (read w)) :
    fault? (nullable read v) = fault? (nullable read w) := by
  by_cases hv : v = .null
  · rw [hv, hnull.mp hv]
  · have hw : w ≠ .null := fun hw => hv (hnull.mpr hw)
    simp [nullable_of_ne_null read hv, nullable_of_ne_null read hw, h]

theorem mapM_cons_eq {α β : Type} (f : α → Decoded β) (x : α) (items : List α) :
    (x :: items).mapM f =
      match f x with
      | .error e => .error e
      | .ok b => (items.mapM f).map (b :: ·) := by
  rw [List.mapM_cons]
  cases f x with
  | error e => rfl
  | ok b => cases items.mapM f <;> rfl

theorem mapM_eq_ok {α β : Type} (f : α → Decoded β) (items : List α) (results : List β) :
    items.mapM f = .ok results ↔ items.map f = results.map .ok := by
  induction items generalizing results with
  | nil => cases results <;> simp [pure, Except.pure]
  | cons x items ih =>
    rw [mapM_cons_eq, List.map_cons]
    cases results with
    | nil => cases f x <;> cases items.mapM f <;> simp [Except.map]
    | cons b results =>
      rw [List.map_cons, List.cons.injEq, ← ih]
      cases f x <;> cases items.mapM f <;> simp [Except.map]

theorem mem_of_list {α : Type} {read : Json → Decoded α} {v : Json} {results : List α} {a : α}
    (h : list read v = .ok results) (ha : a ∈ results) :
    ∃ items, v = .array items ∧ ∃ x ∈ items, read x = .ok a := by
  cases v with
  | array items =>
    have hmap := (mapM_eq_ok read items results).mp h
    have hm : Except.ok a ∈ items.map read := hmap ▸ List.mem_map_of_mem ha
    obtain ⟨x, hx, hread⟩ := List.mem_map.mp hm
    exact ⟨items, rfl, x, hx, hread⟩
  | _ => cases h

theorem fault?_mapM {α β : Type} (f : α → Decoded β) (items : List α) :
    fault? (items.mapM f) = items.findSome? fun x => fault? (f x) := by
  induction items with
  | nil => rfl
  | cons x items ih =>
    rw [mapM_cons_eq, List.findSome?_cons]
    cases f x with
    | error e => rfl
    | ok b => exact (fault?_map _ _).trans ih

end Decode
end Botwright
