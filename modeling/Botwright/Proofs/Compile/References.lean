import Botwright.Proofs.Compile.Check
import Botwright.Proofs.Compile.Places

/-!
# What the check of a document finds

The findings of a list are those about its nodes, each at its own place, and those of the lists
inside them, where nothing is behind an end yet.
-/

namespace Botwright

namespace Node

def inner : Arm → Node → List Node
  | .branch index, conditionGroup _ items _ => (items[index]?.map (·.actions)).getD []
  | .otherwise, conditionGroup _ _ otherwise => otherwise
  | _, _ => []

def arms : Node → List Arm
  | conditionGroup _ items _ => (List.range items.length).map .branch ++ [.otherwise]
  | _ => []

theorem inner_eq_nil {n : Node} {arm : Arm} (h : arm ∉ n.arms) : n.inner arm = [] := by
  cases n with
  | conditionGroup id items otherwise =>
    cases arm with
    | branch index =>
      have hindex : ¬ index < items.length := by simpa [arms] using h
      rw [inner, List.getElem?_eq_none (Nat.le_of_not_lt hindex)]
      rfl
    | otherwise => simp [arms] at h
  | _ => cases arm <;> rfl

theorem sizeOf_of_inner (arm : Arm) (n : Node) : ∀ m ∈ n.inner arm, sizeOf m < sizeOf n := by
  intro m hm
  have hsize := List.sizeOf_lt_of_mem hm
  cases n with
  | conditionGroup id items otherwise =>
    cases arm with
    | branch index =>
      rw [inner] at hm hsize
      cases hi : items[index]? with
      | none =>
        rw [hi] at hm
        cases hm
      | some item =>
        rw [hi] at hsize
        have hitem := List.sizeOf_lt_of_mem (List.mem_of_getElem? hi)
        cases item
        simp at hsize hitem ⊢
        omega
    | otherwise =>
      simp [inner] at hsize ⊢
      omega
  | _ => cases arm <;> cases hm

def unresolved (known : List String) : Node → List Finding
  | beginDialog _ dialog => if dialog ∈ known then [] else [.unresolvedTopic dialog]
  | _ => []

/-- What is found about a node itself, behind others in its list. -/
def findings (known : List String) (before : List Node) (n : Node) : List Finding :=
  ((before.findIdx? isEnding).map (.unreachable n.kind)).toList ++ n.unresolved known

def placedFindings (known : List String) (path : String) (before : List Node) (n : Node) :
    List PlacedFinding :=
  (n.findings known before).map (path, ·)

/-- The findings about a node at a place and those inside it. -/
def findingsAt (known : List String) (path : String) (before : List Node) (n : Node) :
    List PlacedFinding :=
  placedFindings known path before n ++
    n.arms.flatMap fun arm => checkList known (arm.path path) 0 none (n.inner arm)

private theorem checkItems_eq_flatMap (known : List String) (path : String) (index : Nat)
    (items : List (ConditionItem Node)) :
    checkItems known path index items = (List.range items.length).flatMap fun i =>
      checkList known (branchPath path (index + i)) 0 none
        ((items[i]?.map (·.actions)).getD []) := by
  induction items generalizing index with
  | nil => rfl
  | cons item rest ih =>
    obtain ⟨id, condition, actions⟩ := item
    rw [checkItems, ih, List.length_cons, List.range_succ_eq_map, List.flatMap_cons,
      List.flatMap_map]
    simp only [List.getElem?_cons_succ, Nat.add_assoc, Nat.add_comm 1]
    rfl

private theorem check_eq (known : List String) (path : String) (n : Node) :
    check known path n = (n.unresolved known).map (path, ·) ++
      n.arms.flatMap fun arm => checkList known (arm.path path) 0 none (n.inner arm) := by
  cases n with
  | conditionGroup id items otherwise =>
    rw [check, checkItems_eq_flatMap, arms, List.flatMap_append, List.flatMap_map,
      List.flatMap_singleton]
    simp only [Nat.zero_add]
    rfl
  | beginDialog id dialog =>
    by_cases hd : dialog ∈ known <;> simp [check, unresolved, arms, hd]
  | _ => rfl

private theorem reachability_eq (path : String) (before : List Node) (n : Node) :
    reachability path (before.findIdx? isEnding) n =
      ((before.findIdx? isEnding).map (.unreachable n.kind)).toList.map (path, ·) := by
  cases before.findIdx? isEnding <;> rfl

private theorem findIdx?_append_singleton (before : List Node) (n : Node) :
    (before ++ [n]).findIdx? isEnding =
      if (before.findIdx? isEnding).isNone && n.isEnding then some before.length
      else before.findIdx? isEnding := by
  rw [List.findIdx?_append]
  cases before.findIdx? isEnding <;> cases hn : n.isEnding <;> simp [List.findIdx?_cons, hn]

private theorem checkList_append (known : List String) (path : String) (before ns : List Node) :
    checkList known path before.length (before.findIdx? isEnding) ns =
      (ns.zipIdx before.length).flatMap fun p =>
        findingsAt known (elementPath path p.2) ((before ++ ns).take p.2) p.1 := by
  -- the end that is carried along is the first one among the nodes already passed
  induction ns generalizing before with
  | nil => rfl
  | cons n rest ih =>
    have hrest := ih (before ++ [n])
    rw [findIdx?_append_singleton, List.length_append, List.length_singleton,
      List.append_assoc, List.singleton_append] at hrest
    rw [checkList, List.zipIdx_cons, List.flatMap_cons, hrest, List.take_left, findingsAt,
      placedFindings, findings, reachability_eq, check_eq, List.map_append]
    simp

theorem checkList_eq (known : List String) (path : String) (ns : List Node) :
    checkList known path 0 none ns = ns.zipIdx.flatMap fun p =>
      findingsAt known (elementPath path p.2) (ns.take p.2) p.1 :=
  checkList_append known path [] ns

def findingKey (x : PlacedFinding) : String × String := (x.1, x.2.code)

private theorem unresolved_cases (known : List String) (n : Node) :
    n.unresolved known = [] ∨ ∃ dialog, n.unresolved known = [.unresolvedTopic dialog] := by
  cases n with
  | beginDialog id dialog =>
    by_cases hd : dialog ∈ known
    · exact Or.inl (if_pos hd)
    · exact Or.inr ⟨dialog, if_neg hd⟩
  | _ => exact Or.inl rfl

theorem nodup_findings (known : List String) (path : String) (before : List Node) (n : Node) :
    ((placedFindings known path before n).map findingKey).Nodup := by
  rw [placedFindings, findings]
  rcases unresolved_cases known n with h | ⟨dialog, h⟩ <;>
    cases before.findIdx? isEnding <;> simp [h, findingKey, Finding.code]

end Node
end Botwright
