import Botwright.Proofs.Json.Pointer
import Botwright.Proofs.Schema.Agreement
import Botwright.Proofs.Spec.Nesting
import Mathlib.Data.List.Nodup
import Mathlib.Data.List.Perm.Basic
import Mathlib.Data.List.Sigma

/-!
# The grammar of agent specifications

A specification is a tree of parts. A walk down a value lists the places where it does not fit its
part: values of a wrong type, records without their required key and empty names. The schema
reports these places, each once, and nothing else.
-/

namespace Botwright

namespace Json

private theorem sizeOf_of_step? {key : String} {v w : Json} (h : step? key v = some w) :
    sizeOf w < sizeOf v := by
  cases v with
  | object fields =>
    have hget : (object fields).get? key = some w := h
    exact sizeOf_of_get? hget
  | array row =>
    obtain ⟨index, -, hw⟩ := Option.bind_eq_some_iff.mp h
    have hitem : (array row).items[index]? = some w := hw
    exact sizeOf_of_items hitem
  | _ => cases h

private theorem step?_toString {row : List Json} {index : Nat} {w : Json}
    (h : row[index]? = some w) :
    step? (toString index) (.array row) = some w := by
  rw [step?, index?_toString, Option.bind_some, h]

private theorem step_induction {P : Json → Prop}
    (step : ∀ v, (∀ key w, step? key v = some w → P w) → P v) (v : Json) : P v := by
  induction hn : sizeOf v using Nat.strongRecOn generalizing v with
  | ind n ih =>
    apply step
    intro key w hw
    have hsize := sizeOf_of_step? hw
    exact ih (sizeOf w) (by omega) w rfl

end Json

namespace Schema.AgentSpec

/-- What stands at a place of a specification. -/
inductive Part where
  | agent | texts | metadata | security | authentication | topics | topic | triggers | actions
  | action | branches | branch | name | text
deriving DecidableEq

/-- What a part takes. -/
inductive Form where
  | text
  /-- A text that is not empty. -/
  | name
  | listOf (element : Part)
  | record (required : Option String) (members : List (String × Part))

namespace Part

def form : Part → Form
  | agent => .record (some "name") [("capabilities", texts), ("escalationMessage", text),
      ("fallbackMessage", text), ("greeting", text), ("instructions", text),
      ("metadata", metadata), ("name", name), ("security", security), ("topics", topics)]
  | texts => .listOf text
  | metadata => .record none
      [("cloud", text), ("description", text), ("language", text), ("version", text)]
  | security => .record none [("authentication", authentication)]
  | authentication => .record none [("mode", text)]
  | topics => .listOf topic
  | topic => .record (some "name")
      [("actions", actions), ("description", text), ("name", name), ("triggers", triggers)]
  | triggers => .record none [("phrases", texts)]
  | actions => .listOf action
  | action => .record (some "type") [("conditions", branches), ("else", actions), ("type", text)]
  | branches => .listOf branch
  | branch => .record (some "if") [("if", text), ("then", actions)]
  | name => .name
  | text => .text

mutual

/-- The places in a value that do not fit its part. Only a value of the right type is entered. -/
def walk (p : Part) : Json → List Json.Pointer
  | .object fields =>
      match p.form with
      | .record required members =>
          (required.toList.filter fun key => (Json.field? key fields).isNone).map (fun _ => []) ++
            members.flatMap fun (key, q) => (q.walkField key fields).map (key :: ·)
      | _ => [[]]
  | .array row =>
      match p.form with
      | .listOf q => q.walkItems 0 row
      | _ => [[]]
  | .string s =>
      match p.form with
      | .text => []
      | .name => if s = "" then [[]] else []
      | _ => [[]]
  | _ => [[]]

def walkField (p : Part) (key : String) : List (String × Json) → List Json.Pointer
  | [] => []
  | (k, v) :: rest => if k = key then p.walk v else p.walkField key rest

def walkItems (p : Part) : Nat → List Json → List Json.Pointer
  | _, [] => []
  | index, v :: rest => (p.walk v).map (toString index :: ·) ++ p.walkItems (index + 1) rest

end

/-- The schema of a part. -/
def schema : Part → Json
  | agent => document
  | texts => listOf AgentSpec.text
  | metadata => recordOf [("cloud", AgentSpec.text), ("description", AgentSpec.text),
      ("language", AgentSpec.text), ("version", AgentSpec.text)]
  | security => recordOf [("authentication", recordOf [("mode", AgentSpec.text)])]
  | authentication => recordOf [("mode", AgentSpec.text)]
  | topics => listOf (definition "topic")
  | topic => definition "topic"
  | triggers => recordOf [("phrases", listOf AgentSpec.text)]
  | actions => definition "actions"
  | action => definition "action"
  | branches => listOf AgentSpec.branch
  | branch => AgentSpec.branch
  | name => nonEmptyText
  | text => AgentSpec.text

end Part

/-- The rules that a form comes down to. -/
def Form.rules : Form → List Rule
  | text => [.types ["string"]]
  | name => [.minLength 1, .types ["string"]]
  | listOf q => [.items q.schema, .types ["array"]]
  | record required members => .properties (members.map fun m => (m.1, m.2.schema)) ::
      ((required.map fun key => .required [key]).toList ++ [.types ["object"]])

namespace Part

@[simp] theorem rules_schema (p : Part) : rules document p.schema = p.form.rules := by
  cases p <;> rfl

/-- The places of violations. -/
def placesOf (xs : List Violation) : List Json.Pointer := xs.map Violation.place

private theorem placesOf_check_object (p : Part) (place : Json.Pointer) (fields : Json.Fields) :
    placesOf (check document p.schema place (.object fields)) =
      match p.form with
      | .record required members =>
          members.flatMap (fun m => placesOf (checkField document m.1 m.2.schema place fields)) ++
            (required.toList.filter fun key => (Json.field? key fields).isNone).map fun _ => place
      | _ => [place] := by
  have htypes (names : List String) : checkMembers document (.types names) place fields = [] :=
    checkMembers_eq_nil (fun _ => rfl) place fields
  have hlimit (n : Nat) : checkMembers document (.minLength n) place fields = [] :=
    checkMembers_eq_nil (fun _ => rfl) place fields
  have hitems (schema : Json) : checkMembers document (.items schema) place fields = [] :=
    checkMembers_eq_nil (fun _ => rfl) place fields
  have hrequired (keys : List String) : checkMembers document (.required keys) place fields = [] :=
    checkMembers_eq_nil (fun _ => rfl) place fields
  simp only [check, rules_schema]
  cases p.form with
  | text => simp [Form.rules, Rule.messages, Rule.lateMessages, hasType, htypes, placesOf]
  | name => simp [Form.rules, Rule.messages, Rule.lateMessages, hasType, htypes, hlimit, placesOf]
  | listOf q =>
    simp [Form.rules, Rule.messages, Rule.lateMessages, hasType, htypes, hitems, placesOf]
  | record required members =>
    cases required <;>
      simp [Form.rules, Rule.messages, Rule.lateMessages, hasType, htypes, hrequired, placesOf,
        List.map_flatMap, List.flatMap_map, Function.comp_def]

private theorem placesOf_check_array (p : Part) (place : Json.Pointer) (row : List Json) :
    placesOf (check document p.schema place (.array row)) =
      match p.form with
      | .listOf q => placesOf (checkItems document q.schema place 0 row)
      | _ => [place] := by
  simp only [check, rules_schema]
  cases p.form with
  | listOf q => simp [Form.rules, Rule.messages, hasType]
  | record required members =>
    cases required <;> simp [Form.rules, Rule.messages, hasType, placesOf]
  | _ => simp [Form.rules, Rule.messages, hasType, placesOf]

private theorem placesOf_check_string (p : Part) (place : Json.Pointer) (s : String) :
    placesOf (check document p.schema place (.string s)) =
      match p.form with
      | .text => []
      | .name => if s = "" then [place] else []
      | _ => [place] := by
  have hlength : s.length = 0 ↔ s = "" := String.length_eq_zero_iff
  simp only [check, rules_schema]
  cases p.form with
  | name =>
    by_cases hs : s = "" <;> simp [Form.rules, Rule.messages, hasType, placesOf, hlength, hs]
  | record required members =>
    cases required <;> simp [Form.rules, Rule.messages, hasType, placesOf]
  | _ => simp [Form.rules, Rule.messages, hasType, placesOf]

private theorem placesOf_check_other (p : Part) (place : Json.Pointer) {v : Json}
    (hobject : ∀ fields, v ≠ .object fields) (harray : ∀ row, v ≠ .array row)
    (hstring : ∀ s, v ≠ .string s) : placesOf (check document p.schema place v) = [place] := by
  cases v with
  | object fields => exact absurd rfl (hobject fields)
  | array row => exact absurd rfl (harray row)
  | string s => exact absurd rfl (hstring s)
  | _ =>
    simp only [check, rules_schema]
    cases p.form with
    | record required members =>
      cases required <;> simp [Form.rules, Rule.messages, hasType, placesOf]
    | _ => simp [Form.rules, Rule.messages, hasType, placesOf]

private theorem walk_other (p : Part) {v : Json} (hobject : ∀ fields, v ≠ .object fields)
    (harray : ∀ row, v ≠ .array row) (hstring : ∀ s, v ≠ .string s) : p.walk v = [[]] := by
  cases v with
  | object fields => exact absurd rfl (hobject fields)
  | array row => exact absurd rfl (harray row)
  | string s => exact absurd rfl (hstring s)
  | _ => rfl

/-! ## The walk and the schema -/

private theorem walkField_eq (q : Part) (key : String) (fields : Json.Fields) :
    q.walkField key fields = ((Json.field? key fields).map q.walk).getD [] := by
  induction fields with
  | nil => rfl
  | cons head rest ih =>
    obtain ⟨k, v⟩ := head
    by_cases hk : k = key
    · simp [walkField, hk]
    · simp [walkField, hk, ih]

private theorem walkItems_eq (q : Part) (index : Nat) (row : List Json) :
    q.walkItems index row =
      (row.zipIdx index).flatMap fun x => (q.walk x.1).map (toString x.2 :: ·) := by
  induction row generalizing index with
  | nil => rfl
  | cons v rest ih => simp [walkItems, ih]

private theorem checkField_eq (key : String) (schema : Json) (place : Json.Pointer)
    (fields : Json.Fields) : checkField document key schema place fields =
      ((Json.field? key fields).map (check document schema (place ++ [key]))).getD [] := by
  induction fields with
  | nil => rfl
  | cons head rest ih =>
    obtain ⟨k, v⟩ := head
    by_cases hk : k = key
    · simp [checkField, hk]
    · simp [checkField, hk, ih]

private theorem checkItems_eq (schema : Json) (place : Json.Pointer) (index : Nat)
    (row : List Json) :
    checkItems document schema place index row =
      (row.zipIdx index).flatMap fun x => check document schema (place ++ [toString x.2]) x.1 := by
  induction row generalizing index with
  | nil => rfl
  | cons v rest ih => simp [checkItems, ih]

/-- The schema of a part reports the places of its walk. -/
theorem perm_placesOf_check (v : Json) (p : Part) (place : Json.Pointer) :
    (placesOf (check document p.schema place v)).Perm ((p.walk v).map (place ++ ·)) := by
  induction v using Json.step_induction generalizing p place with
  | step v ih =>
    -- the check tells places in the whole value, the walk those below the part
    have hbelow {key : String} {w : Json} (hw : Json.step? key v = some w) (q : Part) :
        (placesOf (check document q.schema (place ++ [key]) w)).Perm
          ((q.walk w).map (place ++ key :: ·)) := by
      have hperm := ih key w hw q (place ++ [key])
      simpa only [List.append_assoc, List.singleton_append] using hperm
    cases v with
    | object fields =>
      rw [placesOf_check_object, walk]
      cases p.form with
      | record required members =>
        dsimp only
        rw [List.map_append, List.map_map, List.map_flatMap]
        refine List.perm_append_comm.trans (List.Perm.append ?_ (List.Perm.flatMap_left _ ?_))
        · rw [Function.comp_def]
          simp
        · intro m _
          rw [checkField_eq, walkField_eq, List.map_map]
          cases hw : Json.field? m.1 fields with
          | none => exact .nil
          | some w => exact hbelow hw m.2
      | _ => simp
    | array row =>
      rw [placesOf_check_array, walk]
      cases p.form with
      | listOf q =>
        dsimp only
        rw [checkItems_eq, walkItems_eq, placesOf, List.map_flatMap, List.map_flatMap]
        apply List.Perm.flatMap_left
        rintro ⟨w, index⟩ hm
        have hw := Json.step?_toString (List.mem_zipIdx_iff_getElem?.mp hm)
        rw [List.map_map]
        exact hbelow hw q
      | _ => simp
    | string s =>
      rw [placesOf_check_string, walk]
      cases p.form with
      | name => by_cases hs : s = "" <;> simp [hs]
      | _ => simp
    | _ =>
      rw [placesOf_check_other p place (by simp) (by simp) (by simp),
        walk_other p (by simp) (by simp) (by simp)]
      simp

/-! ## The places of a walk -/

/-- The places that a walk lists lie in the value. -/
theorem resolve?_of_mem_walk {v : Json} {p : Part} {place : Json.Pointer} (h : place ∈ p.walk v) :
    ∃ w, Json.resolve? place v = some w := by
  induction v using Json.step_induction generalizing p place with
  | step v ih =>
    have hhere : place ∈ [([] : Json.Pointer)] → ∃ w, Json.resolve? place v = some w := by
      intro hm
      rw [List.mem_singleton.mp hm]
      exact ⟨v, rfl⟩
    have hbelow {key : String} {w : Json} {q : Part} {rest : Json.Pointer}
        (hw : Json.step? key v = some w) (hm : rest ∈ q.walk w) :
        ∃ w, Json.resolve? (key :: rest) v = some w := by
      rw [Json.resolve?, hw]
      exact ih key w hw hm
    cases v with
    | object fields =>
      rw [walk] at h
      split at h
      · rcases List.mem_append.mp h with h | h
        · obtain ⟨_, _, rfl⟩ := List.mem_map.mp h
          exact hhere List.mem_cons_self
        · obtain ⟨m, _, h⟩ := List.mem_flatMap.mp h
          obtain ⟨rest, hm, rfl⟩ := List.mem_map.mp h
          rw [walkField_eq] at hm
          cases hw : Json.field? m.1 fields with
          | none =>
            rw [hw] at hm
            cases hm
          | some w =>
            rw [hw] at hm
            exact hbelow hw hm
      · exact hhere h
    | array row =>
      rw [walk] at h
      split at h
      · rw [walkItems_eq] at h
        obtain ⟨⟨w, index⟩, hx, h⟩ := List.mem_flatMap.mp h
        obtain ⟨rest, hm, rfl⟩ := List.mem_map.mp h
        exact hbelow (Json.step?_toString (List.mem_zipIdx_iff_getElem?.mp hx)) hm
      · exact hhere h
    | string s =>
      rw [walk] at h
      split at h
      · cases h
      · split at h
        · exact hhere h
        · cases h
      · exact hhere h
    | _ =>
      rw [walk_other p (by simp) (by simp) (by simp)] at h
      exact hhere h

private theorem nodup_members {p : Part} {required : Option String} {members : List (String × Part)}
    (h : p.form = .record required members) : (members.map Prod.fst).Nodup := by
  cases p <;> cases h <;> decide

private theorem nodup_flatMap_under {α : Type} {items : List α} {key : α → String}
    {below : α → List Json.Pointer} (hkeys : (items.map key).Nodup)
    (hbelow : ∀ x ∈ items, (below x).Nodup) :
    (items.flatMap fun x => (below x).map (key x :: ·)).Nodup := by
  refine List.nodup_flatMap.mpr ⟨fun x hx => ?_, (List.pairwise_map.mp hkeys).imp ?_⟩
  · exact (hbelow x hx).map fun _ _ h => (List.cons.inj h).2
  · intro x y hne place hx hy
    obtain ⟨a, -, rfl⟩ := List.mem_map.mp hx
    obtain ⟨b, -, hb⟩ := List.mem_map.mp hy
    exact hne (List.cons.inj hb).1.symm

/-- No place is listed twice. -/
theorem nodup_walk (v : Json) (p : Part) : (p.walk v).Nodup := by
  induction v using Json.step_induction generalizing p with
  | step v ih =>
    have hhere : ([[]] : List Json.Pointer).Nodup := List.nodup_singleton []
    cases v with
    | object fields =>
      rw [walk]
      split
      · rename_i required members hform
        refine List.nodup_append'.mpr ⟨?_, ?_, ?_⟩
        · cases required with
          | none => exact List.nodup_nil
          | some key => by_cases h : (Json.field? key fields).isNone <;> simp [h]
        · refine nodup_flatMap_under (nodup_members hform) fun m _ => ?_
          rw [walkField_eq]
          cases hw : Json.field? m.1 fields with
          | none => exact List.nodup_nil
          | some w => exact ih m.1 w hw m.2
        · -- what is missing is told at the object, everything else at one of its fields
          intro place hmissing hbelow
          obtain ⟨_, -, rfl⟩ := List.mem_map.mp hmissing
          obtain ⟨m, -, hm⟩ := List.mem_flatMap.mp hbelow
          obtain ⟨_, -, h⟩ := List.mem_map.mp hm
          cases h
      · exact hhere
    | array row =>
      rw [walk]
      split
      · rename_i q _
        rw [walkItems_eq]
        refine nodup_flatMap_under ?_ ?_
        · have hindices := List.nodup_zipIdx_map_snd row
          have hinj : Function.Injective (toString : Nat → String) := fun m n h => by
            have hread := congrArg Json.index? h
            rw [Json.index?_toString, Json.index?_toString] at hread
            exact Option.some.inj hread
          simpa only [List.map_map, Function.comp_def] using hindices.map hinj
        · rintro ⟨w, index⟩ hx
          exact ih _ w (Json.step?_toString (List.mem_zipIdx_iff_getElem?.mp hx)) q
      · exact hhere
    | string s =>
      rw [walk]
      split
      · exact List.nodup_nil
      · split
        · exact hhere
        · exact List.nodup_nil
      · exact hhere
    | _ =>
      rw [walk_other p (by simp) (by simp) (by simp)]
      exact hhere

private theorem ne_of_mem_walk_agent {v : Json} {place : Json.Pointer} (h : place ∈ agent.walk v) :
    place ≠ [""] := by
  rintro rfl
  cases v with
  | object fields =>
    rcases List.mem_append.mp h with h | h
    · obtain ⟨_, _, h⟩ := List.mem_map.mp h
      cases h
    · obtain ⟨m, hm, h⟩ := List.mem_flatMap.mp h
      obtain ⟨_, _, h⟩ := List.mem_map.mp h
      have hkeys : "" ∉ ["capabilities", "escalationMessage", "fallbackMessage", "greeting",
        "instructions", "metadata", "name", "security", "topics"] := by decide
      exact hkeys ((List.cons.inj h).1 ▸ List.mem_map_of_mem hm)
  | _ => cases List.mem_singleton.mp h

end Part

/-! ## The report -/

def pathText (place : Json.Pointer) : String :=
  if place = [] then "/" else Json.pointerText place

theorem path_eq (x : Violation) : x.path = pathText x.place := by
  obtain ⟨place, message⟩ := x
  cases place with
  | nil => rfl
  | cons step rest =>
    have hne : Json.pointerText (step :: rest) ≠ "" := by
      intro h
      cases Json.pointerText_inj (q := []) h
    simp [Violation.path, pathText, hne]

private theorem pathText_eq_slash {place : Json.Pointer} (h : place ≠ [""]) :
    pathText place = "/" ↔ place = [] := by
  constructor
  · intro hslash
    by_contra hne
    rw [pathText, if_neg hne] at hslash
    exact h (Json.pointerText_inj (q := [""]) hslash)
  · rintro rfl
    rfl

private theorem pathText_inj {p q : Json.Pointer} (hp : p ≠ [""]) (hq : q ≠ [""])
    (h : pathText p = pathText q) : p = q := by
  by_cases hroot : p = []
  · rw [(pathText_eq_slash hp).mpr hroot] at h
    rw [hroot, (pathText_eq_slash hq).mp h.symm]
  · have hne : q ≠ [] := fun hq' => by
      rw [(pathText_eq_slash hq).mpr hq'] at h
      exact hroot ((pathText_eq_slash hp).mp h)
    rw [pathText, pathText, if_neg hroot, if_neg hne] at h
    exact Json.pointerText_inj h

/-- The validation reports the places that the walk down the grammar lists, each once, by pointers
that lead to values of the document or by a slash for all of it. It passes what the walk has
nothing against. -/
theorem validate_walk (v : Json) :
    ((validate document v).map Violation.path).Perm ((Part.agent.walk v).map pathText) ∧
    ((validate document v).map Violation.path).Nodup ∧
    (∀ x ∈ validate document v,
      (x.path = "/" ↔ x.place = []) ∧
      (x.path ≠ "/" → Json.pointer? x.path = some x.place) ∧
      ∃ w, Json.resolve? x.place v = some w) ∧
    ((validate document v).isEmpty ↔ Part.agent.walk v = []) ∧
    (requireValid (validate document v) = .ok () ↔ Part.agent.walk v = []) := by
  have hplaces : (Part.placesOf (validate document v)).Perm (Part.agent.walk v) := by
    have hperm := Part.perm_placesOf_check v .agent []
    simp only [List.nil_append, List.map_id'] at hperm
    exact hperm
  have hpaths : ((validate document v).map Violation.path).Perm
      ((Part.agent.walk v).map pathText) := by
    have hmap : (validate document v).map Violation.path =
        (Part.placesOf (validate document v)).map pathText := by
      rw [Part.placesOf, List.map_map]
      exact List.map_congr_left fun x _ => path_eq x
    rw [hmap]
    exact hplaces.map pathText
  have hempty : validate document v = [] ↔ Part.agent.walk v = [] := by
    rw [← List.map_eq_nil_iff (f := Violation.place)]
    change Part.placesOf (validate document v) = [] ↔ _
    constructor
    · intro h
      exact (h ▸ hplaces).nil_eq.symm
    · intro h
      exact (h ▸ hplaces).eq_nil
  refine ⟨hpaths, hpaths.nodup_iff.mpr ?_, ?_, by rw [List.isEmpty_iff, hempty], ?_⟩
  · refine (Part.nodup_walk v .agent).map_on ?_
    intro p hp q hq
    exact pathText_inj (Part.ne_of_mem_walk_agent hp) (Part.ne_of_mem_walk_agent hq)
  · intro x hx
    have hmem := hplaces.mem_iff.mp (List.mem_map_of_mem hx)
    have hslash := pathText_eq_slash (Part.ne_of_mem_walk_agent hmem)
    rw [path_eq]
    refine ⟨hslash, fun hne => ?_, Part.resolve?_of_mem_walk hmem⟩
    rw [pathText, if_neg (mt hslash.mpr hne), Json.pointer?_pointerText]
  · simp [hempty]

/-- A specification with faults at three depths. -/
def untidy : Json := .object [("name", .int 42), ("topics", .array
  [.object [("description", .string "no name")],
    .object [("actions", .array [.object [("text", .string "no type")]]),
      ("name", .string "Ok")]])]

theorem untidy_validate :
    ((validate document untidy).map Violation.path).Perm
      ["/name", "/topics/0", "/topics/1/actions/0"] ∧
    requireValid (validate document untidy) ≠ .ok () := by
  obtain ⟨hpaths, -, -, -, hvalid⟩ := validate_walk untidy
  have hwalk : Part.agent.walk untidy =
      [["name"], ["topics", "0"], ["topics", "1", "actions", "0"]] := by decide
  rw [hwalk] at hpaths hvalid
  exact ⟨hpaths, mt hvalid.mp (List.cons_ne_nil _ _)⟩

end Schema.AgentSpec
end Botwright
