import Botwright.Proofs.Spec.Reading

/-!
# Actions inside actions

A condition holds a list of actions in each of its arms, which are its branches and its
alternative. A seat is a place in one of these lists. It names an action of a condition that was
read, and the value in the same place of what was written.
-/

namespace Botwright

open Decode

namespace Json

def items : Json → List Json
  | .array items => items
  | _ => []

def modifyKey (key : String) (f : Json → Json) : Json → Json
  | .object fields => .object (modifyField key f fields)
  | v => v

@[simp] theorem get?_modifyKey_self (key : String) (f : Json → Json) (v : Json) :
    (v.modifyKey key f).get? key = (v.get? key).map f := by
  cases v with
  | object fields => exact field?_modifyField_self key f fields
  | _ => rfl

private theorem get?_modifyKey_ne {key other : String} (h : other ≠ key) (f : Json → Json)
    (v : Json) :
    (v.modifyKey key f).get? other = v.get? other := by
  cases v with
  | object fields => exact field?_modifyField_ne h f fields
  | _ => rfl

private theorem sizeOf_of_field? {key : String} {fields : Fields} {v : Json}
    (h : field? key fields = some v) : sizeOf v < sizeOf fields := by
  induction fields with
  | nil => cases h
  | cons head rest ih =>
    obtain ⟨k, w⟩ := head
    rw [field?_cons] at h
    split at h
    · cases h
      simp
      omega
    · have hrest := ih h
      simp
      omega

theorem sizeOf_of_get? {key : String} {v w : Json} (h : v.get? key = some w) :
    sizeOf w < sizeOf v := by
  cases v with
  | object fields =>
    have hfield := sizeOf_of_field? h
    simp
    omega
  | _ => cases h

theorem sizeOf_of_items {index : Nat} {v w : Json} (h : v.items[index]? = some w) :
    sizeOf w < sizeOf v := by
  cases v with
  | array items =>
    have hitem := List.sizeOf_lt_of_mem (List.mem_of_getElem? h)
    simp [Json.items] at hitem ⊢
    omega
  | _ => cases h

private theorem items_mapItems_modify (index : Nat) (f : Json → Json) (v : Json) :
    (v.mapItems (·.modify index f)).items = v.items.modify index f := by
  cases v with
  | array items => rfl
  | _ => exact (List.modify_nil f index).symm

end Json

private theorem Decode.sizeOf_of_fieldAt? {name : String} {index : Nat} {v w : Json}
    (h : fieldAt? name index v = some w) : sizeOf w < sizeOf v := by
  cases v with
  | object fields =>
    have hget : (Json.object fields).get? name = some w := h
    exact Json.sizeOf_of_get? hget
  | array items => exact Json.sizeOf_of_items h
  | _ => cases h

/-- One of the lists of actions inside a condition. -/
inductive Arm where
  | branch (index : Nat)
  | otherwise
deriving DecidableEq

namespace Arm

def value? : Arm → Json → Option Json
  | branch index, v =>
      (v.get? "conditions").bind fun w => w.items[index]?.bind (fieldAt? "then" 1)
  | otherwise, v => v.get? "else"

def modify (f : Json → Json) : Arm → Json → Json
  | branch index, v =>
      v.modifyKey "conditions" (Json.mapItems (·.modify index (modifyAt "then" 1 f)))
  | otherwise, v => v.modifyKey "else" f

@[simp] theorem value?_modify_self (arm : Arm) (f : Json → Json) (v : Json) :
    arm.value? (arm.modify f v) = (arm.value? v).map f := by
  cases arm with
  | otherwise => exact Json.get?_modifyKey_self "else" f v
  | branch index =>
    simp only [value?, modify, Json.get?_modifyKey_self]
    cases v.get? "conditions" with
    | none => rfl
    | some w =>
      simp only [Option.map_some, Option.bind_some, Json.items_mapItems_modify,
        List.getElem?_modify_eq]
      cases w.items[index]? with
      | none => rfl
      | some b => exact fieldAt?_modifyAt_self "then" 1 f b

theorem value?_modify_ne {arm other : Arm} (h : other ≠ arm) (f : Json → Json) (v : Json) :
    other.value? (arm.modify f v) = other.value? v := by
  cases arm with
  | otherwise =>
    cases other with
    | otherwise => exact absurd rfl h
    | branch index =>
      have hkey : "conditions" ≠ "else" := by decide
      simp only [value?, modify, Json.get?_modifyKey_ne hkey]
  | branch index =>
    cases other with
    | otherwise => exact Json.get?_modifyKey_ne (by decide) _ v
    | branch place =>
      have hne : index ≠ place := fun he => h (he ▸ rfl)
      simp only [value?, modify, Json.get?_modifyKey_self]
      cases v.get? "conditions" with
      | none => rfl
      | some w =>
        simp only [Option.map_some, Option.bind_some, Json.items_mapItems_modify,
          List.getElem?_modify_ne _ _ hne]

private theorem sizeOf_of_value? {arm : Arm} {v l : Json} (h : arm.value? v = some l) :
    sizeOf l < sizeOf v := by
  cases arm with
  | otherwise => exact Json.sizeOf_of_get? h
  | branch index =>
    obtain ⟨w, hw, hb⟩ := Option.bind_eq_some_iff.mp h
    obtain ⟨b, hb, hl⟩ := Option.bind_eq_some_iff.mp hb
    have hbranches := Json.sizeOf_of_get? hw
    have hbranch := Json.sizeOf_of_items hb
    have hlist := sizeOf_of_fieldAt? hl
    omega

theorem typeOf?_modify (arm : Arm) (f : Json → Json) (v : Json) :
    Action.typeOf? (arm.modify f v) = Action.typeOf? v := by
  have hkey (key : String) (g : Json → Json) (hk : "type" ≠ key) :
      Action.typeOf? (v.modifyKey key g) = Action.typeOf? v := by
    rw [Action.typeOf?, Json.get?_modifyKey_ne hk, Action.typeOf?]
  cases arm with
  | branch index => exact hkey "conditions" _ (by decide)
  | otherwise => exact hkey "else" f (by decide)

end Arm

/-- The place of an action inside a condition. -/
structure Seat where
  arm : Arm
  index : Nat
deriving DecidableEq

namespace Seat

def value? (seat : Seat) (v : Json) : Option Json :=
  (seat.arm.value? v).bind (·.items[seat.index]?)

def modify (f : Json → Json) (seat : Seat) (v : Json) : Json :=
  seat.arm.modify (Json.mapItems (·.modify seat.index f)) v

@[simp] theorem value?_modify_self (seat : Seat) (f : Json → Json) (v : Json) :
    seat.value? (seat.modify f v) = (seat.value? v).map f := by
  rw [value?, modify, Arm.value?_modify_self, value?]
  cases seat.arm.value? v with
  | none => rfl
  | some w =>
    simp [Json.items_mapItems_modify]

theorem value?_modify_ne {seat other : Seat} (h : other ≠ seat) (f : Json → Json) (v : Json) :
    other.value? (seat.modify f v) = other.value? v := by
  by_cases ha : other.arm = seat.arm
  · have hi : seat.index ≠ other.index := by
      intro hi
      apply h
      cases seat
      cases other
      simp_all
    rw [value?, modify, ha, Arm.value?_modify_self, value?, ha]
    cases seat.arm.value? v with
    | none => rfl
    | some w =>
      simp only [Option.map_some, Option.bind_some, Json.items_mapItems_modify,
        List.getElem?_modify_ne _ _ hi]
  · rw [value?, modify, Arm.value?_modify_ne ha, value?]

private theorem sizeOf_of_value? {seat : Seat} {v w : Json} (h : seat.value? v = some w) :
    sizeOf w < sizeOf v := by
  obtain ⟨l, hl, hw⟩ := Option.bind_eq_some_iff.mp h
  have hlist := Arm.sizeOf_of_value? hl
  have hitem := Json.sizeOf_of_items hw
  omega

/-- What passes from the values in the seats of a value to the value itself holds of every value. -/
theorem induction {P : Json → Prop}
    (step : ∀ v, (∀ seat w, value? seat v = some w → P w) → P v) (v : Json) : P v := by
  apply step
  intro seat w hw
  exact induction step w
termination_by sizeOf v
decreasing_by exact sizeOf_of_value? hw

/-- The value that a way through nested seats leads to. -/
def valueAt? : List Seat → Json → Option Json
  | [], v => some v
  | seat :: below, v => (seat.value? v).bind (valueAt? below)

/-- Applies a function to the value that a way through nested seats leads to. -/
def modifyBelow (f : Json → Json) : List Seat → Json → Json
  | [], v => f v
  | seat :: below, v => seat.modify (modifyBelow f below) v

def replaceAt (seats : List Seat) (replacement : Json) (v : Json) : Json :=
  modifyBelow (fun _ => replacement) seats v

/-- What is changed further down is changed in the value on the way, and nowhere else there. -/
@[simp] theorem valueAt?_modifyBelow (f : Json → Json) (above below : List Seat) (v : Json) :
    valueAt? above (modifyBelow f (above ++ below) v) =
      (valueAt? above v).map (modifyBelow f below) := by
  induction above generalizing v with
  | nil => rfl
  | cons seat above ih =>
    rw [List.cons_append, modifyBelow, valueAt?, value?_modify_self, valueAt?]
    cases seat.value? v with
    | none => rfl
    | some w => exact ih w

end Seat

namespace Action

def inner : Arm → Action → List Action
  | .branch index, condition branches _ => (branches[index]?.map (·.actions)).getD []
  | .otherwise, condition _ otherwise => otherwise.getD []
  | _, _ => []

def seated? (seat : Seat) (a : Action) : Option Action := (a.inner seat.arm)[seat.index]?

theorem seated?_eq_none {a : Action} (h : ∀ branches otherwise, a ≠ condition branches otherwise)
    (seat : Seat) : a.seated? seat = none := by
  have hinner : a.inner seat.arm = [] := by
    cases a with
    | condition branches otherwise => exact absurd rfl (h branches otherwise)
    | _ => cases seat.arm <;> rfl
  rw [seated?, hinner, List.getElem?_nil]

theorem inner_of_mem_branches {branches : List (Branch Action)} {b : Branch Action}
    (otherwise : Option (List Action)) (h : b ∈ branches) :
    ∃ arm, (condition branches otherwise).inner arm = b.actions := by
  obtain ⟨index, hindex⟩ := List.mem_iff_getElem?.mp h
  refine ⟨.branch index, ?_⟩
  rw [inner, hindex]
  rfl

private theorem list_eq_ok {v : Json} {actions : List Action} (h : list v = .ok actions) :
    actions = v.items.map ofJson := by
  cases v with
  | array items =>
    rw [list_array] at h
    exact (Except.ok.inj h).symm
  | _ => cases h

private theorem branch_actions {v : Json} {b : Branch Action} (h : branch v = .ok b) :
    b.actions = ((fieldAt? "then" 1 v).elim [] Json.items).map ofJson := by
  rw [branch_eq, ofBranch] at h
  obtain ⟨_, _, h⟩ := bind_eq_ok.mp h
  obtain ⟨predicate, _, h⟩ := bind_eq_ok.mp h
  obtain ⟨actions, hactions, h⟩ := bind_eq_ok.mp h
  cases h
  rcases field_eq_ok hactions with ⟨hv, rfl⟩ | ⟨w, read, hv, hw, rfl⟩
  · rw [hv]
    rfl
  · rw [hv]
    exact list_eq_ok hw

private theorem reads_of_condition {v : Json} {branches : List (Branch Action)}
    {otherwise : Option (List Action)} (h : ofJson v = condition branches otherwise) :
    ∃ fields bs o, v = .object fields ∧
      field v "conditions" 0 (Decode.list branch) = .ok bs ∧ branches = bs.getD [] ∧
      field v "else" 1 (nullable list) = .ok o ∧ otherwise = o.join := by
  cases ht : typeOf? v with
  | none =>
    rw [ofJson_of_untyped ht] at h
    cases h
  | some kind =>
    obtain ⟨fields, rfl, hv⟩ := ofJson_of_typed ht
    have hisKnown : (ofJson (.object fields)).isKnown = true := by rw [h]; rfl
    rw [hv] at h hisKnown
    obtain ⟨hkind, hknown⟩ := settle_of_isKnown hisKnown
    rw [h] at hknown
    obtain rfl : kind = "condition" := (kind_of_ofKnownKind hkind hknown).2.symm
    rw [known, ofKnownKind_condition] at hknown
    split at hknown
    · cases hknown
    · cases hknown
    · cases hknown
      exact ⟨fields, _, _, rfl, ‹_›, rfl, ‹_›, rfl⟩

private theorem getElem?_of_list_branch {w : Json} {bs : List (Branch Action)}
    (h : Decode.list branch w = .ok bs) (index : Nat) :
    (bs[index]?.map (·.actions)).getD [] =
      ((w.items[index]?.bind (fieldAt? "then" 1)).elim [] Json.items).map ofJson := by
  cases w with
  | array items =>
    have hmap := (mapM_eq_ok branch items bs).mp h
    have hindex := congrArg (·[index]?) hmap
    simp only [List.getElem?_map] at hindex
    simp only [Json.items]
    cases hb : bs[index]? with
    | none =>
      rw [hb] at hindex
      cases hi : items[index]? with
      | none => rfl
      | some v =>
        rw [hi] at hindex
        cases hindex
    | some b =>
      rw [hb] at hindex
      obtain ⟨v, hi, hv⟩ := Option.map_eq_some_iff.mp hindex
      rw [hi]
      exact branch_actions hv
  | _ => cases h

private theorem inner_of_condition {v : Json} {branches : List (Branch Action)}
    {otherwise : Option (List Action)} (h : ofJson v = condition branches otherwise) (arm : Arm) :
    (condition branches otherwise).inner arm =
      ((arm.value? v).elim [] Json.items).map ofJson := by
  obtain ⟨fields, bs, o, rfl, hbs, rfl, ho, rfl⟩ := reads_of_condition h
  cases arm with
  | branch index =>
    -- a condition without branches holds nothing in any of them
    rcases field_eq_ok hbs with ⟨hv, rfl⟩ | ⟨w, read, hv, hw, rfl⟩
    · have hget : (Json.object fields).get? "conditions" = none := hv
      rw [Arm.value?, hget]
      rfl
    · have hget : (Json.object fields).get? "conditions" = some w := hv
      rw [Arm.value?, hget]
      exact getElem?_of_list_branch hw index
  | otherwise =>
    rcases field_eq_ok ho with ⟨hv, rfl⟩ | ⟨w, read, hv, hw, rfl⟩
    · have hget : (Json.object fields).get? "else" = none := hv
      rw [Arm.value?, hget]
      rfl
    · have hget : (Json.object fields).get? "else" = some w := hv
      rw [Arm.value?, hget]
      cases read with
      | none =>
        -- a `null` has no items either
        obtain rfl := nullable_eq_none hw
        rfl
      | some actions => exact list_eq_ok (nullable_eq_some hw)

theorem seated?_of_condition {v : Json} {branches : List (Branch Action)}
    {otherwise : Option (List Action)} (h : ofJson v = condition branches otherwise)
    (seat : Seat) : (ofJson v).seated? seat = (seat.value? v).map ofJson := by
  rw [h, seated?, inner_of_condition h, List.getElem?_map, Seat.value?]
  cases seat.arm.value? v with
  | none => rfl
  | some w => rfl

private theorem value_of_seated? {v : Json} {seat : Seat} {a : Action}
    (h : (ofJson v).seated? seat = some a) : ∃ w, seat.value? v = some w ∧ ofJson w = a := by
  by_cases hv : ∃ branches otherwise, ofJson v = condition branches otherwise
  · obtain ⟨branches, otherwise, hv⟩ := hv
    rw [seated?_of_condition hv] at h
    exact Option.map_eq_some_iff.mp h
  · have hnone : (ofJson v).seated? seat = none :=
      seated?_eq_none (fun branches otherwise hb => hv ⟨branches, otherwise, hb⟩) seat
    rw [hnone] at h
    cases h

theorem value_of_mem_inner {v : Json} {arm : Arm} {a : Action} (h : a ∈ (ofJson v).inner arm) :
    ∃ index w, Seat.value? ⟨arm, index⟩ v = some w ∧ ofJson w = a := by
  obtain ⟨index, hindex⟩ := List.mem_iff_getElem?.mp h
  have hseated : (ofJson v).seated? ⟨arm, index⟩ = some a := hindex
  exact ⟨index, value_of_seated? hseated⟩

end Action
end Botwright
