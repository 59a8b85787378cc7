import Botwright.Proofs.Compile.Places
import Botwright.Proofs.Compile.Recording
import Mathlib.Data.List.Sort

/-!
# The actions of a list, depth first

An action stands before the actions inside it, and these before the actions behind it. The branches
of a condition come in order, the alternative comes last. There is one list of all actions with
their places in this order.
-/

namespace Botwright

/-- Branches come in order, the alternative behind them. -/
def Arm.Before : Arm → Arm → Prop
  | branch i, branch j => i < j
  | branch _, otherwise => True
  | otherwise, _ => False

private theorem Arm.Before.irrefl (arm : Arm) : ¬ arm.Before arm := by
  cases arm with
  | branch i => exact Nat.lt_irrefl i
  | otherwise => exact id

theorem Arm.Before.asymm {arm arm' : Arm} (h : arm.Before arm') : ¬ arm'.Before arm := by
  cases arm <;> cases arm' <;> simp_all [Arm.Before, Nat.le_of_lt]

/-- A place comes before another: an action before those inside it, and where ways part, what
stands earlier. -/
def placeBefore : List Descent → Nat → List Descent → Nat → Prop
  | [], i, [], j => i < j
  | [], i, e :: _, _ => i ≤ e.index
  | d :: _, _, [], j => d.index < j
  | d :: way, i, e :: way', j => d.index < e.index ∨ d.index = e.index ∧
      (d.arm.Before e.arm ∨ d.arm = e.arm ∧ placeBefore way i way' j)

theorem placeBefore.asymm {way way' : List Descent} {i j : Nat} (h : placeBefore way i way' j) :
    ¬ placeBefore way' j way i := by
  induction way generalizing way' with
  | nil =>
    cases way' with
    | nil => exact Nat.lt_asymm h
    | cons e way' => exact Nat.not_lt.mpr h
  | cons d way ih =>
    cases way' with
    | nil => exact Nat.not_le.mpr h
    | cons e way' =>
      rintro (hback | ⟨heq, hback⟩)
      · rcases h with h | ⟨h, -⟩ <;> omega
      · rcases h with h | ⟨-, h⟩
        · omega
        · rcases h with h | ⟨harm, h⟩
          · rcases hback with hback | ⟨harm', -⟩
            · exact h.asymm hback
            · exact Arm.Before.irrefl d.arm (harm' ▸ h)
          · rcases hback with hback | ⟨-, hback⟩
            · exact Arm.Before.irrefl d.arm (harm ▸ hback)
            · exact ih h hback

def outerIndex (way : List Descent) (index : Nat) : Nat :=
  (way.head?.map Descent.index).getD index

private theorem placeBefore_of_outerIndex {way way' : List Descent} {i j : Nat}
    (h : outerIndex way i < outerIndex way' j) : placeBefore way i way' j := by
  cases way with
  | nil =>
    cases way' with
    | nil => exact h
    | cons e way' => exact Nat.le_of_lt h
  | cons d way =>
    cases way' with
    | nil => exact h
    | cons e way' => exact Or.inl h

theorem pairwise_branches (count : Nat) :
    ((List.range count).map Arm.branch ++ [Arm.otherwise]).Pairwise Arm.Before := by
  rw [List.pairwise_append, List.pairwise_map]
  refine ⟨List.pairwise_lt_range, List.pairwise_singleton _ _, ?_⟩
  intro arm harm last hlast
  obtain ⟨index, -, rfl⟩ := List.mem_map.mp harm
  rw [List.mem_singleton.mp hlast]
  trivial

/-- Where each element is listed in front of what is inside it, arm by arm, all places come in
order. -/
theorem pairwise_placeBefore {α : Type} [SizeOf α] {inner : Arm → α → List α}
    {arms : α → List Arm} (hsize : ∀ arm a, ∀ b ∈ inner arm a, sizeOf b < sizeOf a)
    (harms : ∀ a, (arms a).Pairwise Arm.Before) {places : List α → List (List Descent × Nat)}
    (hplaces : ∀ l, places l = l.zipIdx.flatMap fun p =>
      ([], p.2) :: (arms p.1).flatMap fun arm =>
        (places (inner arm p.1)).map fun q => (⟨p.2, arm⟩ :: q.1, q.2))
    (l : List α) : (places l).Pairwise fun x y => placeBefore x.1 x.2 y.1 y.2 := by
  induction l using nested_induction inner hsize with
  | step l ih =>
    rw [hplaces, List.pairwise_flatMap]
    constructor
    · rintro ⟨a, index⟩ hp
      have ha := List.mem_of_getElem? (List.mem_zipIdx_iff_getElem?.mp hp)
      rw [List.pairwise_cons, List.pairwise_flatMap]
      refine ⟨fun x hx => ?_, fun arm _ => ?_, (harms a).imp fun harm x hx y hy => ?_⟩
      · obtain ⟨arm, -, hx⟩ := List.mem_flatMap.mp hx
        obtain ⟨q, -, rfl⟩ := List.mem_map.mp hx
        exact Nat.le_refl index
      · exact List.pairwise_map.mpr ((ih a ha arm).imp fun h => Or.inr ⟨rfl, Or.inr ⟨rfl, h⟩⟩)
      · obtain ⟨q, -, rfl⟩ := List.mem_map.mp hx
        obtain ⟨q', -, rfl⟩ := List.mem_map.mp hy
        exact Or.inr ⟨rfl, Or.inl harm⟩
    · -- what comes from different elements differs in the outermost list already
      have houter : ∀ p : α × Nat, ∀ x ∈ ([], p.2) :: (arms p.1).flatMap fun arm =>
          (places (inner arm p.1)).map fun q => (⟨p.2, arm⟩ :: q.1, q.2),
          outerIndex x.1 x.2 = p.2 := by
        intro p x hx
        rcases List.mem_cons.mp hx with rfl | hx
        · rfl
        · obtain ⟨arm, -, hx⟩ := List.mem_flatMap.mp hx
          obtain ⟨q, -, rfl⟩ := List.mem_map.mp hx
          rfl
      have hpositions : (l.zipIdx.map Prod.snd).Pairwise (· < ·) := by
        rw [List.zipIdx_map_snd]
        exact List.pairwise_lt_range'
      refine (List.pairwise_map.mp hpositions).imp fun {p q} hlt x hx y hy => ?_
      apply placeBefore_of_outerIndex
      rwa [houter p x hx, houter q y hy]

/-- An action with its place. -/
structure Located where
  way : List Descent
  index : Nat
  action : Action

namespace Located

def path (path : String) (x : Located) : String := placePath path x.way x.index

def under (d : Descent) (x : Located) : Located := ⟨d :: x.way, x.index, x.action⟩

def Before (x y : Located) : Prop := placeBefore x.way x.index y.way y.index

def record (path : String) (x : Located) : Recording Unit := x.action.recordOwn (x.path path)

theorem adds_record (path : String) (x : Located) : Recording.Adds (x.record path) :=
  Action.adds_recordOwn _ x.action

private theorem forM_record_under (path : String) (d : Descent) (xs : List Located) :
    forM (xs.map (under d)) (record path) = forM xs (record (d.path path)) := by
  rw [List.forM_map]
  rfl

theorem Before.asymm {x y : Located} (h : x.Before y) : ¬ y.Before x :=
  placeBefore.asymm h

end Located

namespace Action

def arms : Action → List Arm
  | condition branches _ => (List.range branches.length).map .branch ++ [.otherwise]
  | _ => []

theorem inner_eq_nil {a : Action} {arm : Arm} (h : arm ∉ a.arms) : a.inner arm = [] := by
  cases a with
  | condition branches otherwise =>
    cases arm with
    | branch index =>
      have hindex : ¬ index < branches.length := by simpa [arms] using h
      rw [inner, List.getElem?_eq_none (Nat.le_of_not_lt hindex)]
      rfl
    | otherwise => simp [arms] at h
  | _ => cases arm <;> rfl

theorem pairwise_arms (a : Action) : a.arms.Pairwise Arm.Before := by
  cases a with
  | condition branches otherwise => exact pairwise_branches branches.length
  | _ => exact .nil

theorem sizeOf_of_inner (arm : Arm) (a : Action) : ∀ b ∈ a.inner arm, sizeOf b < sizeOf a := by
  intro b hb
  have hsize := List.sizeOf_lt_of_mem hb
  cases a with
  | condition branches otherwise =>
    cases arm with
    | branch index =>
      rw [inner] at hb hsize
      cases hi : branches[index]? with
      | none =>
        rw [hi] at hb
        cases hb
      | some branch =>
        rw [hi] at hsize
        have hbranch := List.sizeOf_lt_of_mem (List.mem_of_getElem? hi)
        cases branch
        simp at hsize hbranch ⊢
        omega
    | otherwise =>
      cases otherwise with
      | none => cases hb
      | some actions =>
        simp [inner] at hsize ⊢
        omega
  | _ => cases arm <;> cases hb

mutual

def inside (index : Nat) : Action → List Located
  | condition branches none => insideBranches index 0 branches
  | condition branches (some otherwise) =>
      insideBranches index 0 branches ++ (located 0 otherwise).map (.under ⟨index, .otherwise⟩)
  | _ => []

def insideBranches (index : Nat) : Nat → List (Branch Action) → List Located
  | _, [] => []
  | place, ⟨_, actions⟩ :: rest =>
      (located 0 actions).map (.under ⟨index, .branch place⟩) ++
        insideBranches index (place + 1) rest

/-- The actions of a list from position `index` on and those inside them, depth first. -/
def located : Nat → List Action → List Located
  | _, [] => []
  | index, a :: rest => ⟨[], index, a⟩ :: inside index a ++ located (index + 1) rest

end

mutual

/-- An action and those inside it are recorded one after the other, in the order of their places. -/
theorem record_eq (path : String) (index : Nat) (a : Action) :
    record (elementPath path index) a =
      (do recordOwn (elementPath path index) a; forM (a.inside index) (Located.record path)) := by
  cases a with
  | condition branches otherwise =>
    cases otherwise with
    | none => rw [record, recordBranches_eq path index 0 branches, inside]
    | some otherwise =>
      rw [record, recordBranches_eq path index 0 branches, recordList_eq (elsePath _) 0 otherwise,
        inside, List.forM_append, Located.forM_record_under]
      rfl
  | _ => rfl

private theorem recordBranches_eq (path : String) (index place : Nat)
    (branches : List (Branch Action)) :
    recordBranches (elementPath path index) place branches =
      forM (insideBranches index place branches) (Located.record path) := by
  cases branches with
  | nil => rfl
  | cons branch rest =>
    obtain ⟨condition, actions⟩ := branch
    rw [recordBranches, recordBranches_eq path index (place + 1) rest, recordList_eq _ 0 actions,
      insideBranches, List.forM_append, Located.forM_record_under]
    rfl

theorem recordList_eq (path : String) (index : Nat) (l : List Action) :
    recordList path index l = forM (located index l) (Located.record path) := by
  cases l with
  | nil => rfl
  | cons a rest =>
    rw [recordList, record_eq path index a, recordList_eq path (index + 1) rest, located,
      List.cons_append, List.forM_cons, List.forM_append, bind_assoc]
    rfl

end

private theorem insideBranches_eq (index place : Nat) (branches : List (Branch Action)) :
    insideBranches index place branches = (List.range branches.length).flatMap fun i =>
      (located 0 ((branches[i]?.map (·.actions)).getD [])).map
        (.under ⟨index, .branch (place + i)⟩) := by
  induction branches generalizing place with
  | nil => rfl
  | cons branch rest ih =>
    obtain ⟨condition, actions⟩ := branch
    rw [insideBranches, ih, List.length_cons, List.range_succ_eq_map, List.flatMap_cons,
      List.flatMap_map]
    simp only [List.getElem?_cons_succ, Nat.add_assoc, Nat.add_comm 1]
    rfl

private theorem inside_eq (index : Nat) (a : Action) :
    a.inside index = a.arms.flatMap fun arm =>
      (located 0 (a.inner arm)).map (.under ⟨index, arm⟩) := by
  cases a with
  | condition branches otherwise =>
    have hbranches := insideBranches_eq index 0 branches
    simp only [Nat.zero_add] at hbranches
    rw [arms, List.flatMap_append, List.flatMap_map, List.flatMap_singleton]
    cases otherwise with
    | none =>
      rw [inside, hbranches]
      exact (List.append_nil _).symm
    | some otherwise =>
      rw [inside, hbranches]
      rfl
  | _ => rfl

private theorem located_eq (index : Nat) (l : List Action) :
    located index l = (l.zipIdx index).flatMap fun p => ⟨[], p.2, p.1⟩ :: p.1.inside p.2 := by
  induction l generalizing index with
  | nil => rfl
  | cons a rest ih => simp [located, ih]

private theorem mem_inside (index : Nat) (a : Action) (x : Located) :
    x ∈ a.inside index ↔ ∃ arm, ∃ y ∈ located 0 (a.inner arm), x = y.under ⟨index, arm⟩ := by
  rw [inside_eq, List.mem_flatMap]
  constructor
  · rintro ⟨arm, -, hx⟩
    obtain ⟨y, hy, rfl⟩ := List.mem_map.mp hx
    exact ⟨arm, y, hy, rfl⟩
  · rintro ⟨arm, y, hy, rfl⟩
    refine ⟨arm, ?_, List.mem_map_of_mem hy⟩
    by_contra harm
    rw [inner_eq_nil harm] at hy
    cases hy

private theorem mem_located_level (l : List Action) (x : Located) :
    x ∈ located 0 l ↔
      ∃ index a, l[index]? = some a ∧ (x = ⟨[], index, a⟩ ∨ x ∈ a.inside index) := by
  rw [located_eq, List.mem_flatMap]
  constructor
  · rintro ⟨⟨a, index⟩, hp, hx⟩
    exact ⟨index, a, List.mem_zipIdx_iff_getElem?.mp hp, List.mem_cons.mp hx⟩
  · rintro ⟨index, a, ha, hx⟩
    exact ⟨(a, index), List.mem_zipIdx_iff_getElem?.mpr ha, List.mem_cons.mpr hx⟩

theorem mem_located (l : List Action) (x : Located) :
    x ∈ located 0 l ↔ (descend inner x.way l)[x.index]? = some x.action := by
  obtain ⟨way, index, a⟩ := x
  induction way generalizing l with
  | nil =>
    rw [mem_located_level]
    constructor
    · rintro ⟨i, b, hb, hx | hx⟩
      · cases hx
        exact hb
      · obtain ⟨arm, y, -, hx⟩ := (mem_inside i b _).mp hx
        cases hx
    · intro ha
      exact ⟨index, a, ha, Or.inl rfl⟩
  | cons d way ih =>
    rw [mem_located_level, descend]
    constructor
    · rintro ⟨i, b, hb, hx | hx⟩
      · cases hx
      · obtain ⟨arm, y, hy, hx⟩ := (mem_inside i b _).mp hx
        cases hx
        rw [hb]
        exact (ih _).mp hy
    · intro ha
      -- a way that starts past the end leads into the empty list
      cases hb : l[d.index]? with
      | none =>
        rw [hb] at ha
        change (descend inner way [])[index]? = some a at ha
        rw [descend_nil_list] at ha
        cases ha
      | some b =>
        rw [hb] at ha
        exact ⟨d.index, b, hb, Or.inr ((mem_inside _ b _).mpr ⟨d.arm, _, (ih _).mpr ha, rfl⟩)⟩

theorem eq_of_mem_located {l : List Action} {x y : Located} (hx : x ∈ located 0 l)
    (hy : y ∈ located 0 l) (hway : x.way = y.way) (hindex : x.index = y.index) : x = y := by
  have hxy := (mem_located l x).mp hx
  rw [hway, hindex, (mem_located l y).mp hy] at hxy
  obtain ⟨way, index, a⟩ := x
  obtain ⟨way', index', b⟩ := y
  cases hway
  cases hindex
  cases hxy
  rfl

/-- The listed actions come in the order of their places. -/
theorem pairwise_located (l : List Action) : (located 0 l).Pairwise Located.Before := by
  have hplaces (l : List Action) : (located 0 l).map (fun x => (x.way, x.index)) =
      l.zipIdx.flatMap fun p => ([], p.2) :: p.1.arms.flatMap fun arm =>
        ((located 0 (p.1.inner arm)).map fun x => (x.way, x.index)).map fun q =>
          (⟨p.2, arm⟩ :: q.1, q.2) := by
    rw [located_eq, List.map_flatMap]
    simp only [List.map_cons, inside_eq, List.map_flatMap, List.map_map]
    rfl
  have hordered := pairwise_placeBefore sizeOf_of_inner pairwise_arms hplaces l
  rwa [List.pairwise_map] at hordered

/-- All actions of a list and those inside them, in the order of their places. -/
structure DepthFirst (l : List Action) (xs : List Located) : Prop where
  complete : ∀ x, x ∈ xs ↔ (descend inner x.way l)[x.index]? = some x.action
  ordered : xs.Pairwise Located.Before

theorem depthFirst_iff (l : List Action) (xs : List Located) :
    DepthFirst l xs ↔ xs = located 0 l := by
  constructor
  · intro h
    have hirrefl : Std.Irrefl Located.Before := ⟨fun x hx => hx.asymm hx⟩
    have hasymm : Std.Antisymm Located.Before := ⟨fun x y hx hy => absurd hy hx.asymm⟩
    refine h.ordered.eq_of_mem_iff (pairwise_located l) fun x => ?_
    rw [h.complete, mem_located]
  · rintro rfl
    exact ⟨mem_located l, pairwise_located l⟩

end Action

theorem Topic.record_eq (publisher : String) (t : Topic) :
    t.record publisher = (do
      forM (Action.located 0 t.actionList) (Located.record (topicPath t.name))
      Recording.progress (.compiledTopic t.name (Naming.topic publisher t.name) t.phrases.length
        t.actionList.length)) := by
  rw [record, Action.recordList_eq]

end Botwright
