import Botwright.Proofs.Spec.Nesting
import Botwright.Proofs.Spec.Records
import Botwright.Spec.Writer

/-!
# Reading is local

What an action is read as depends on its own fields. An action inside it may be any value at all:
it changes neither what the actions around it are read as nor what its neighbours are, and it does
not decide whether the specification reads.
-/

namespace Botwright

open Decode

namespace Json

private theorem mapItems_eq_null (g : List Json → List Json) (v : Json) :
    v.mapItems g = .null ↔ v = .null := by
  cases v <;> simp [mapItems]

end Json

namespace Decode

private theorem fault?_list_modify {α : Type} (read : Json → Decoded α) (f : Json → Json)
    (index : Nat) (hf : ∀ x, fault? (read (f x)) = fault? (read x)) (v : Json) :
    fault? (list read (v.mapItems (·.modify index f))) = fault? (list read v) := by
  cases v with
  | array items =>
    simp only [Json.mapItems, list, fault?_mapM]
    induction items generalizing index with
    | nil => rw [List.modify_nil]
    | cons x items ih =>
      cases index with
      | zero => rw [List.modify_zero_cons, List.findSome?_cons, List.findSome?_cons, hf]
      | succ index =>
        rw [List.modify_succ_cons, List.findSome?_cons, List.findSome?_cons, ih]
  | _ => rfl

end Decode

namespace Action

/-- What an action was read as: its type and, where its fields do not fit, the reason. -/
inductive Reading where
  | known (kind : String)
  | unrecognized (kind : String)
  | malformed (kind : String) (reason : DecodeError)
deriving DecidableEq

def reading : Action → Reading
  | unrecognized kind _ => .unrecognized kind
  | malformed kind _ reason => .malformed kind reason
  | a => .known a.kind

private theorem reading_of_isKnown {a : Action} (h : a.isKnown = true) :
    a.reading = .known a.kind := by
  cases a with
  | unrecognized kind body => cases h
  | malformed kind body reason => cases h
  | _ => rfl

private theorem reading_settle_known {kind : String} (hkind : kind ∈ knownKinds) (body : Json)
    (fields : Json.Fields) :
    (settle kind body (known kind fields)).reading =
      match fault? (known kind fields) with
      | none => .known kind
      | some reason => .malformed kind reason := by
  unfold settle
  rw [if_pos hkind]
  cases h : known kind fields with
  | error reason => rfl
  | ok a =>
    obtain ⟨hknown, ha⟩ := kind_of_ofKnownKind hkind h
    rw [reading_of_isKnown hknown, ha]
    rfl

private theorem fault?_list_mapItems (g : List Json → List Json) (v : Json) :
    fault? (list (v.mapItems g)) = fault? (list v) := by
  cases v with
  | array items => simp [Json.mapItems, fault?]
  | _ => rfl

private theorem fault?_ofBranch (v : Json) (actions : Decoded (Option (List Action))) :
    fault? (ofBranch v actions) =
      fault? (checkRecord .tagged "ConditionBranch"
        [slot "if" .required (field v "if" 0 Decode.text), slot "then" .defaulted actions] v) := by
  rw [ofBranch]
  cases hc : checkRecord .tagged "ConditionBranch"
      [slot "if" .required (field v "if" 0 Decode.text), slot "then" .defaulted actions] v with
  | error e => rfl
  | ok u =>
    obtain ⟨predicate, hp, hthere⟩ := read_of_checkRecord hc List.mem_cons_self
    obtain ⟨as, has, _⟩ := read_of_checkRecord hc (List.mem_cons_of_mem _ List.mem_cons_self)
    obtain ⟨text, rfl⟩ := hthere rfl
    rw [hp, has]
    rfl

private theorem fault?_branch_modify (g : List Json → List Json) (v : Json) :
    fault? (branch (modifyAt "then" 1 (Json.mapItems g) v)) = fault? (branch v) := by
  have hthen := slot_modifyAt_self .defaulted "then" 1 (Json.mapItems g) v list
    (fault?_list_mapItems g)
  have hif := field_modifyAt_ne (by decide : "if" ≠ "then") (by decide : 0 ≠ 1)
    (Json.mapItems g) v Decode.text
  rw [branch_eq, branch_eq, fault?_ofBranch, fault?_ofBranch, hthen, hif, checkRecord_modifyAt]

private theorem fault?_known_congr (kind : String) {fields others : Json.Fields}
    (hfields : ∀ key, key ≠ "conditions" → key ≠ "else" →
      Json.field? key others = Json.field? key fields)
    (hbranches : fault? (field (.object others) "conditions" 0 (Decode.list branch)) =
      fault? (field (.object fields) "conditions" 0 (Decode.list branch)))
    (hotherwise : fault? (field (.object others) "else" 1 (nullable list)) =
      fault? (field (.object fields) "else" 1 (nullable list))) :
    fault? (known kind others) = fault? (known kind fields) := by
  by_cases hkind : kind = "condition"
  · subst hkind
    rw [known, ofKnownKind_condition, known, ofKnownKind_condition]
    revert hbranches hotherwise
    generalize field (.object others) "conditions" 0 (Decode.list branch) = b'
    generalize field (.object fields) "conditions" 0 (Decode.list branch) = b
    generalize field (.object others) "else" 1 (nullable list) = o'
    generalize field (.object fields) "else" 1 (nullable list) = o
    intro hbranches hotherwise
    cases b <;> cases b' <;> cases o <;> cases o' <;> simp_all [fault?]
  · rw [known, ofKnownKind_congr hkind hfields, known]

private theorem fault?_known_modify (kind : String) (arm : Arm) (g : List Json → List Json)
    (fields : Json.Fields) :
    ∃ others, arm.modify (Json.mapItems g) (.object fields) = .object others ∧
      fault? (known kind others) = fault? (known kind fields) := by
  cases arm with
  | branch index =>
    let change := Json.mapItems (·.modify index (modifyAt "then" 1 (Json.mapItems g)))
    refine ⟨Json.modifyField "conditions" change fields, rfl, ?_⟩
    apply fault?_known_congr
    · intro key hc _
      exact Json.field?_modifyField_ne hc change fields
    · apply fault?_field_modifyAt_self "conditions" 0 change (.object fields)
      exact fault?_list_modify branch _ index (fault?_branch_modify g)
    · have helse : "else" ≠ "conditions" := by decide
      rw [← field_modifyAt_ne helse Nat.one_ne_zero change (.object fields)]
      rfl
  | otherwise =>
    refine ⟨Json.modifyField "else" (Json.mapItems g) fields, rfl, ?_⟩
    apply fault?_known_congr
    · intro key _ he
      exact Json.field?_modifyField_ne he (Json.mapItems g) fields
    · have hconditions : "conditions" ≠ "else" := by decide
      rw [← field_modifyAt_ne hconditions Nat.zero_ne_one (Json.mapItems g) (.object fields)]
      rfl
    · apply fault?_field_modifyAt_self "else" 1 (Json.mapItems g) (.object fields)
      intro v
      exact fault?_nullable list (Json.mapItems_eq_null g v) (fault?_list_mapItems g v)

/-- What an action is read as does not depend on what its lists of actions hold. -/
theorem reading_modify (arm : Arm) (g : List Json → List Json) (v : Json) :
    (ofJson (arm.modify (Json.mapItems g) v)).reading = (ofJson v).reading := by
  have htype := arm.typeOf?_modify (Json.mapItems g) v
  cases ht : typeOf? v with
  | none => rw [ofJson_of_untyped ht, ofJson_of_untyped (htype.trans ht)]; rfl
  | some kind =>
    obtain ⟨fields, rfl, hv⟩ := ofJson_of_typed ht
    obtain ⟨others, ho, hfault⟩ := fault?_known_modify kind arm g fields
    rw [ho] at htype ⊢
    obtain ⟨_, ⟨⟩, hw⟩ := ofJson_of_typed (htype.trans ht)
    rw [hv, hw]
    by_cases hkind : kind ∈ knownKinds
    · rw [reading_settle_known hkind, reading_settle_known hkind, hfault]
    · simp only [settle, if_neg hkind, reading]

private theorem reading_eq_condition (a : Action) :
    a.reading = .known "condition" ↔ ∃ branches otherwise, a = condition branches otherwise := by
  cases a <;> simp [reading, kind]

private theorem seated?_modify_ne {seat other : Seat} (h : other ≠ seat) (f : Json → Json)
    (v : Json) :
    (ofJson (seat.modify f v)).seated? other = (ofJson v).seated? other := by
  have hreading : (ofJson (seat.modify f v)).reading = (ofJson v).reading :=
    reading_modify seat.arm _ v
  -- the reading survives the change, and only a condition has anything in its seats
  by_cases hv : (ofJson v).reading = .known "condition"
  · obtain ⟨branches, otherwise, hb⟩ := (reading_eq_condition _).mp hv
    obtain ⟨branches', otherwise', hb'⟩ := (reading_eq_condition _).mp (hreading.trans hv)
    rw [seated?_of_condition hb', seated?_of_condition hb, Seat.value?_modify_ne h]
  · have hnone (a : Action) (ha : a.reading ≠ .known "condition") : a.seated? other = none := by
      apply seated?_eq_none
      intro branches otherwise hb
      exact ha ((reading_eq_condition a).mpr ⟨branches, otherwise, hb⟩)
    rw [hnone _ hv, hnone _ (hreading.trans_ne hv)]

/-- What is not known is kept as it was written. -/
theorem toJson_ofJson_of_unknown {v : Json} (h : (ofJson v).isKnown = false) :
    (ofJson v).toJson = v := by
  cases ht : typeOf? v with
  | none =>
    rw [ofJson_of_untyped ht, toJson]
  | some kind =>
    obtain ⟨fields, rfl, hv⟩ := ofJson_of_typed ht
    rw [hv] at h ⊢
    by_cases hkind : kind ∈ knownKinds
    · cases hknown : known kind fields with
      | error reason => simp [settle, hkind, toJson]
      | ok a =>
        have ha := (kind_of_ofKnownKind hkind hknown).1
        simp [settle, hkind, hknown, ha] at h
    · simp [settle, hkind, toJson]

end Action

namespace Topic

private theorem slots_modifyActions (g : List Json → List Json) (v : Json) :
    slots (modifyAt "actions" 3 (Json.mapItems g) v) = slots v := by
  have hactions (x : Json) : fault? (nullable Action.list (x.mapItems g)) =
      fault? (nullable Action.list x) :=
    fault?_nullable Action.list (Json.mapItems_eq_null g x) (Action.fault?_list_mapItems g x)
  simp (disch := decide) only [slots, field_modifyAt_ne]
  rw [slot_modifyAt_self _ _ _ _ _ _ hactions]

private theorem fault?_modifyActions (g : List Json → List Json) (v : Json) :
    fault? (ofJson (modifyAt "actions" 3 (Json.mapItems g) v)) = fault? (ofJson v) := by
  rw [fault?_ofJson, fault?_ofJson, slots_modifyActions, checkRecord_modifyAt]

end Topic

namespace Agent

/-- Changes the list of actions of the topic at a position, where there is one. -/
def modifyActions (index : Nat) (g : List Json → List Json) (v : Json) : Json :=
  modifyAt "topics" 8
    (Json.mapItems (·.modify index (modifyAt "actions" 3 (Json.mapItems g)))) v

private theorem fault?_modifyActions (index : Nat) (g : List Json → List Json) (v : Json) :
    fault? (ofJson (modifyActions index g v)) = fault? (ofJson v) := by
  have htopics (x : Json) :
      fault? (nullable (Decode.list Topic.ofJson)
        (x.mapItems (·.modify index (modifyAt "actions" 3 (Json.mapItems g))))) =
        fault? (nullable (Decode.list Topic.ofJson) x) :=
    fault?_nullable _ (Json.mapItems_eq_null _ x)
      (fault?_list_modify Topic.ofJson _ index (Topic.fault?_modifyActions g) x)
  have hslots : slots (modifyActions index g v) = slots v := by
    simp (disch := decide) only [slots, modifyActions, field_modifyAt_ne]
    rw [slot_modifyAt_self _ _ _ _ _ _ htopics]
  rw [fault?_ofJson, fault?_ofJson, hslots, modifyActions, checkRecord_modifyAt]

end Agent

namespace Action

/-- Every value reads as an action, and one that is not known keeps what was written. What an
action is read as, with the reason if it does not fit, and what the actions beside it are read as,
does not depend on an action inside it, however deep; nor does it depend on any action whether a
specification reads. -/
theorem ofJson_local (v : Json) :
    (typeOf? v = none → ofJson v = unrecognized missingKind v) ∧
      (∀ kind, typeOf? v = some kind →
        (kind ∉ knownKinds → ofJson v = unrecognized kind v) ∧
          (kind ∈ knownKinds → ((ofJson v).isKnown = true ∧ (ofJson v).kind = kind) ∨
            ∃ reason, ofJson v = malformed kind v reason)) ∧
      ((ofJson v).isKnown = false → (ofJson v).toJson = v) ∧
      (∀ branches otherwise, ofJson v = condition branches otherwise →
        ∀ seat, (ofJson v).seated? seat = (Seat.value? seat v).map ofJson) ∧
      (∀ above seat below replacement enclosing, Seat.valueAt? above v = some enclosing →
        ∃ changed,
          Seat.valueAt? above (Seat.replaceAt (above ++ seat :: below) replacement v) =
              some changed ∧
            (ofJson changed).reading = (ofJson enclosing).reading ∧
            ∀ other, other ≠ seat →
              (ofJson changed).seated? other = (ofJson enclosing).seated? other) ∧
      ∀ index g,
        ((∃ agent, Agent.ofJson (Agent.modifyActions index g v) = .ok agent) ↔
            ∃ agent, Agent.ofJson v = .ok agent) ∧
          ∀ e, Agent.ofJson (Agent.modifyActions index g v) = .error e ↔
            Agent.ofJson v = .error e := by
  refine ⟨ofJson_of_untyped, ?_, toJson_ofJson_of_unknown, ?_, ?_, ?_⟩
  · intro kind hkind
    obtain ⟨fields, rfl, hv⟩ := ofJson_of_typed hkind
    rw [hv]
    refine ⟨?_, ?_⟩
    · intro hunknown
      simp only [settle, if_neg hunknown]
    · intro hknown
      simp only [settle, if_pos hknown]
      cases hread : known kind fields with
      | error reason => exact Or.inr ⟨reason, rfl⟩
      | ok a => exact Or.inl (kind_of_ofKnownKind hknown hread)
  · intro branches otherwise hv seat
    exact seated?_of_condition hv seat
  · intro above seat below replacement enclosing habove
    -- seen from the enclosing value, the change is one to the value in its own seat
    refine ⟨seat.modify (Seat.replaceAt below replacement) enclosing, ?_, ?_, ?_⟩
    · rw [Seat.replaceAt, Seat.valueAt?_modifyBelow, habove]
      rfl
    · exact reading_modify seat.arm _ enclosing
    · intro other hother
      exact seated?_modify_ne hother _ enclosing
  · intro index g
    have hfault := Agent.fault?_modifyActions index g v
    refine ⟨?_, ?_⟩
    · rw [← fault?_eq_none, ← fault?_eq_none, hfault]
    · intro e
      rw [← fault?_eq_some, ← fault?_eq_some, hfault]

/-- A condition without a predicate, in the alternative of a condition whose branch is written by
position. -/
def brokenAlternative : Json :=
  .object [("conditions", .array [.object [("then", .array [.null])]]),
    ("type", .string "condition")]

def tangled : Json := .object [
  ("conditions", .array [.array [.string "=Topic.Open", .array [
    .object [("text", .int 5), ("type", .string "message")],
    .object [("type", .string "escalate")]]]]),
  ("else", .array [brokenAlternative]),
  ("type", .string "condition")]

/-- Under another action the broken condition stays broken for the same reason, and so does the
condition around it stay known. -/
theorem tangled_local :
    ((ofJson tangled).isKnown = true ∧ (ofJson tangled).kind = "condition") ∧
      (ofJson brokenAlternative).toJson = brokenAlternative ∧
      (ofJson tangled).seated? ⟨.branch 0, 0⟩ =
        some (malformed "message" (.object [("text", .int 5), ("type", .string "message")])
          (.wrongType (.integer 5) .text)) ∧
      ∃ changed,
        Seat.valueAt? [⟨.otherwise, 0⟩]
            (Seat.replaceAt [⟨.otherwise, 0⟩, ⟨.branch 0, 0⟩] (.string "later") tangled) =
          some changed ∧
        (ofJson changed).reading = .malformed "condition" (.missingField "if") := by
  obtain ⟨_, hkind, _, hseated, hlocal, _⟩ := ofJson_local tangled
  have hbroken : (ofJson brokenAlternative).reading =
      .malformed "condition" (.missingField "if") := by decide
  obtain ⟨changed, hchanged, hreading, _⟩ :=
    hlocal [⟨.otherwise, 0⟩] ⟨.branch 0, 0⟩ [] (.string "later") brokenAlternative rfl
  refine ⟨?_, (ofJson_local brokenAlternative).2.2.1 (by decide), ?_, changed, hchanged,
    hreading.trans hbroken⟩
  · rcases (hkind "condition" rfl).2 (by decide) with hknown | ⟨reason, hmalformed⟩
    · exact hknown
    · have hunknown : (ofJson tangled).isKnown = false := congrArg isKnown hmalformed
      exact absurd hunknown (by decide)
  · exact hseated _ _ rfl ⟨.branch 0, 0⟩

end Action
end Botwright
