import Botwright.Proofs.Compile.DepthFirst
import Botwright.Proofs.Compile.References
import Mathlib.Logic.Function.Iterate

/-!
# The check as a walk

The check of a document visits every node once, dialog by dialog and depth first, and looks at no
more than the node and those in front of it in its own list. What it adds to diagnostics depends on
the document alone, whatever the diagnostics hold already.
-/

namespace Botwright

/-- A node at a place, with the nodes in front of it in its own list. -/
structure Visit where
  way : List Descent
  before : List Node
  node : Node

namespace Visit

def index (x : Visit) : Nat := x.before.length

def path (path : String) (x : Visit) : String := placePath path x.way x.index

def under (d : Descent) (x : Visit) : Visit := ⟨d :: x.way, x.before, x.node⟩

def Before (x y : Visit) : Prop := placeBefore x.way x.index y.way y.index

def findings (known : List String) (path : String) (x : Visit) : List PlacedFinding :=
  x.node.placedFindings known (x.path path) x.before

end Visit

namespace Node

mutual

def visitsBelow (index : Nat) : Node → List Visit
  | conditionGroup _ items otherwise =>
      visitsOfItems index 0 items ++ (visits [] otherwise).map (.under ⟨index, .otherwise⟩)
  | _ => []

def visitsOfItems (index : Nat) : Nat → List (ConditionItem Node) → List Visit
  | _, [] => []
  | place, ⟨_, _, actions⟩ :: rest =>
      (visits [] actions).map (.under ⟨index, .branch place⟩) ++
        visitsOfItems index (place + 1) rest

/-- The visits of a list of nodes behind others and of those inside them, depth first. -/
def visits (before : List Node) : List Node → List Visit
  | [] => []
  | n :: rest => ⟨[], before, n⟩ :: visitsBelow before.length n ++ visits (before ++ [n]) rest

end

private theorem visitsOfItems_eq (index place : Nat) (items : List (ConditionItem Node)) :
    visitsOfItems index place items = (List.range items.length).flatMap fun i =>
      (visits [] ((items[i]?.map (·.actions)).getD [])).map
        (.under ⟨index, .branch (place + i)⟩) := by
  induction items generalizing place with
  | nil => rfl
  | cons item rest ih =>
    obtain ⟨id, condition, actions⟩ := item
    rw [visitsOfItems, ih, List.length_cons, List.range_succ_eq_map, List.flatMap_cons,
      List.flatMap_map]
    simp only [List.getElem?_cons_succ, Nat.add_assoc, Nat.add_comm 1]
    rfl

private theorem visitsBelow_eq (index : Nat) (n : Node) :
    visitsBelow index n = n.arms.flatMap fun arm =>
      (visits [] (n.inner arm)).map (.under ⟨index, arm⟩) := by
  cases n with
  | conditionGroup id items otherwise =>
    rw [visitsBelow, visitsOfItems_eq, arms, List.flatMap_append, List.flatMap_map,
      List.flatMap_singleton]
    simp only [Nat.zero_add]
    rfl
  | _ => rfl

private theorem visits_append (before ns : List Node) :
    visits before ns = (ns.zipIdx before.length).flatMap fun p =>
      ⟨[], (before ++ ns).take p.2, p.1⟩ :: visitsBelow p.2 p.1 := by
  induction ns generalizing before with
  | nil => rfl
  | cons n rest ih =>
    have hrest := ih (before ++ [n])
    rw [List.length_append, List.length_singleton, List.append_assoc,
      List.singleton_append] at hrest
    simp [visits, hrest]

private theorem visits_eq (ns : List Node) :
    visits [] ns = ns.zipIdx.flatMap fun p =>
      ⟨[], ns.take p.2, p.1⟩ :: p.1.arms.flatMap fun arm =>
        (visits [] (p.1.inner arm)).map (.under ⟨p.2, arm⟩) := by
  have hvisits := visits_append [] ns
  simp only [visitsBelow_eq] at hvisits
  exact hvisits

/-! ## What is visited, and in which order -/

theorem pairwise_arms (n : Node) : n.arms.Pairwise Arm.Before := by
  cases n with
  | conditionGroup id items otherwise => exact pairwise_branches items.length
  | _ => exact .nil

private theorem mem_visits_level (ns : List Node) (x : Visit) :
    x ∈ visits [] ns ↔ ∃ i n, ns[i]? = some n ∧ (x = ⟨[], ns.take i, n⟩ ∨
      ∃ arm, ∃ y ∈ visits [] (n.inner arm), x = y.under ⟨i, arm⟩) := by
  rw [visits_eq, List.mem_flatMap]
  constructor
  · rintro ⟨⟨n, i⟩, hn, hx⟩
    refine ⟨i, n, List.mem_zipIdx_iff_getElem?.mp hn, (List.mem_cons.mp hx).imp_right ?_⟩
    intro hx
    obtain ⟨arm, -, hx⟩ := List.mem_flatMap.mp hx
    obtain ⟨y, hy, rfl⟩ := List.mem_map.mp hx
    exact ⟨arm, y, hy, rfl⟩
  · rintro ⟨i, n, hn, hx⟩
    refine ⟨(n, i), List.mem_zipIdx_iff_getElem?.mpr hn, List.mem_cons.mpr (hx.imp_right ?_)⟩
    rintro ⟨arm, y, hy, rfl⟩
    have harm : arm ∈ n.arms := by
      by_contra harm
      rw [inner_eq_nil harm] at hy
      cases hy
    exact List.mem_flatMap.mpr ⟨arm, harm, List.mem_map_of_mem hy⟩

private theorem eq_take_iff {α : Type} {l before : List α} {a : α} :
    (∃ i, l[i]? = some a ∧ before = l.take i) ↔ ∃ later, l = before ++ a :: later := by
  constructor
  · rintro ⟨i, ha, rfl⟩
    obtain ⟨hi, rfl⟩ := List.getElem?_eq_some_iff.mp ha
    exact ⟨l.drop (i + 1), by rw [← List.drop_eq_getElem_cons hi, List.take_append_drop]⟩
  · rintro ⟨later, rfl⟩
    exact ⟨before.length, by simp, by simp⟩

/-- Visited is what stands at the end of a way, behind what stands in front of it there. -/
theorem mem_visits (ns : List Node) (x : Visit) :
    x ∈ visits [] ns ↔ ∃ later, descend inner x.way ns = x.before ++ x.node :: later := by
  obtain ⟨way, before, n⟩ := x
  induction way generalizing ns with
  | nil =>
    rw [mem_visits_level, descend, ← eq_take_iff]
    constructor
    · rintro ⟨i, m, hm, hx | ⟨arm, y, -, hx⟩⟩
      · cases hx
        exact ⟨i, hm, rfl⟩
      · cases hx
    · rintro ⟨i, hn, rfl⟩
      exact ⟨i, n, hn, Or.inl rfl⟩
  | cons d way ih =>
    rw [mem_visits_level, descend]
    constructor
    · rintro ⟨i, m, hm, hx | ⟨arm, y, hy, hx⟩⟩
      · cases hx
      · cases hx
        rw [hm]
        exact (ih _).mp hy
    · rintro ⟨later, hlater⟩
      cases hm : ns[d.index]? with
      | none =>
        rw [hm] at hlater
        change descend inner way [] = before ++ n :: later at hlater
        rw [descend_nil_list] at hlater
        simp at hlater
      | some m =>
        rw [hm] at hlater
        exact ⟨d.index, m, hm, Or.inr ⟨d.arm, _, (ih _).mpr ⟨later, hlater⟩, rfl⟩⟩

private theorem pairwise_visits (ns : List Node) : (visits [] ns).Pairwise Visit.Before := by
  have hindex (ns : List Node) (p : Node × Nat) (hp : p ∈ ns.zipIdx) :
      (ns.take p.2).length = p.2 := by
    obtain ⟨hp, -⟩ := List.getElem?_eq_some_iff.mp (List.mem_zipIdx_iff_getElem?.mp hp)
    exact List.length_take_of_le (Nat.le_of_lt hp)
  have hplaces (ns : List Node) : (visits [] ns).map (fun x => (x.way, x.index)) =
      ns.zipIdx.flatMap fun p => ([], p.2) :: p.1.arms.flatMap fun arm =>
        ((visits [] (p.1.inner arm)).map fun x => (x.way, x.index)).map fun q =>
          (⟨p.2, arm⟩ :: q.1, q.2) := by
    rw [visits_eq, List.map_flatMap]
    refine List.flatMap_congr fun p hp => ?_
    simp only [List.map_cons, List.map_flatMap, List.map_map, Visit.index, hindex ns p hp]
    rfl
  have hordered := pairwise_placeBefore sizeOf_of_inner pairwise_arms hplaces ns
  rwa [List.pairwise_map] at hordered

/-- All nodes of a list and those inside them, each behind what stands in front of it, in the order
of their places. -/
structure DepthFirst (ns : List Node) (xs : List Visit) : Prop where
  complete : ∀ x, x ∈ xs ↔ ∃ later, descend inner x.way ns = x.before ++ x.node :: later
  ordered : xs.Pairwise Visit.Before

private theorem eq_visits_iff (ns : List Node) (xs : List Visit) :
    DepthFirst ns xs ↔ xs = visits [] ns := by
  constructor
  · intro h
    have hasymm {x y : Visit} (hx : x.Before y) (hy : y.Before x) : False := hx.asymm hy
    have hirrefl : Std.Irrefl Visit.Before := ⟨fun x hx => hasymm hx hx⟩
    have hanti : Std.Antisymm Visit.Before := ⟨fun x y hx hy => (hasymm hx hy).elim⟩
    refine h.ordered.eq_of_mem_iff (pairwise_visits ns) fun x => ?_
    rw [h.complete, mem_visits]
  · rintro rfl
    exact ⟨mem_visits ns, pairwise_visits ns⟩

/-! ## What is found on the way -/

private theorem flatMap_findings_under (known : List String) (path : String) (d : Descent)
    (xs : List Visit) :
    (xs.map (.under d)).flatMap (Visit.findings known path) =
      xs.flatMap (Visit.findings known (d.path path)) := by
  rw [List.flatMap_map]
  rfl

/-- The check of a list finds what there is to find about the visited nodes, one after another. -/
theorem checkList_eq_visits (known : List String) (path : String) (ns : List Node) :
    checkList known path 0 none ns = (visits [] ns).flatMap (Visit.findings known path) := by
  induction ns using nested_induction inner sizeOf_of_inner generalizing path with
  | step ns ih =>
    rw [checkList_eq, visits_eq, List.flatMap_assoc]
    refine List.flatMap_congr fun p hp => ?_
    have hp := List.mem_zipIdx_iff_getElem?.mp hp
    obtain ⟨hlt, -⟩ := List.getElem?_eq_some_iff.mp hp
    have hown : Visit.findings known path ⟨[], ns.take p.2, p.1⟩ =
        p.1.placedFindings known (elementPath path p.2) (ns.take p.2) := by
      rw [Visit.findings, Visit.path, Visit.index, List.length_take_of_le (Nat.le_of_lt hlt)]
      rfl
    rw [findingsAt, List.flatMap_cons, hown, List.flatMap_assoc]
    congr 1
    refine List.flatMap_congr fun arm _ => ?_
    rw [ih p.1 (List.mem_of_getElem? hp) arm, flatMap_findings_under]
    rfl

/-- Whatever is found in a list is found about the node at one of its places. -/
theorem mem_checkList (known : List String) (path : String) (ns : List Node) (x : PlacedFinding) :
    x ∈ checkList known path 0 none ns ↔
      ∃ way i n, (descend inner way ns)[i]? = some n ∧
        x ∈ placedFindings known (placePath path way i) ((descend inner way ns).take i) n := by
  rw [checkList_eq_visits, List.mem_flatMap]
  constructor
  · rintro ⟨visit, hvisit, hx⟩
    obtain ⟨i, hn, hbefore⟩ := eq_take_iff.mpr ((mem_visits ns visit).mp hvisit)
    obtain ⟨hi, -⟩ := List.getElem?_eq_some_iff.mp hn
    have hindex : visit.index = i := by
      rw [Visit.index, hbefore, List.length_take_of_le (Nat.le_of_lt hi)]
    refine ⟨visit.way, i, visit.node, hn, ?_⟩
    rw [← hbefore, ← hindex]
    exact hx
  · rintro ⟨way, i, n, hn, hx⟩
    obtain ⟨hi, -⟩ := List.getElem?_eq_some_iff.mp hn
    refine ⟨⟨way, (descend inner way ns).take i, n⟩, ?_, ?_⟩
    · exact (mem_visits ns _).mpr (eq_take_iff.mp ⟨i, hn, rfl⟩)
    · rw [Visit.findings, Visit.path, Visit.index, List.length_take_of_le (Nat.le_of_lt hi)]
      exact hx

private theorem nodup_checkList (known : List String) (path : String) (ns : List Node) :
    ((checkList known path 0 none ns).map findingKey).Nodup := by
  rw [checkList_eq_visits, List.map_flatMap, List.nodup_flatMap]
  refine ⟨fun x _ => nodup_findings known _ x.before x.node, (pairwise_visits ns).imp ?_⟩
  intro x y hbefore key hx hy
  obtain ⟨f, hf, rfl⟩ := List.mem_map.mp hx
  obtain ⟨g, hg, heq⟩ := List.mem_map.mp hy
  obtain ⟨_, _, rfl⟩ := List.mem_map.mp hf
  obtain ⟨_, _, rfl⟩ := List.mem_map.mp hg
  -- findings under one text are about one node, which is not in front of itself
  obtain ⟨hway, hindex⟩ := placePath_inj (congrArg Prod.fst heq)
  rw [Visit.Before, hway, hindex] at hbefore
  exact hbefore.asymm hbefore

end Node

namespace Visit

def unreachable (path : String) (x : Visit) : Diagnostics :=
  ((x.before.findIdx? Node.isEnding).map fun ending =>
    ⟨.info, "unreachable-action", x.path path, x.node.kind ++
      " follows EndConversation at index " ++ toString ending ++ " and will never run"⟩).toList

def unresolved (known : List String) (path : String) (x : Visit) : Diagnostics :=
  match x.node with
  | .beginDialog _ dialog =>
      if dialog ∈ known then []
      else [⟨.warning, "unresolved-topic-reference", x.path path,
        "no topic with schema name '" ++ dialog ++ "' exists in this document"⟩]
  | _ => []

def diagnostics (known : List String) (path : String) (x : Visit) : Diagnostics :=
  x.unreachable path ++ x.unresolved known path

private theorem map_diagnostic_findings (known : List String) (path : String) (x : Visit) :
    (x.findings known path).map (fun y => y.2.diagnostic y.1) = x.diagnostics known path := by
  obtain ⟨way, before, n⟩ := x
  have hunreachable (path : String) :
      ((before.findIdx? Node.isEnding).map (.unreachable n.kind)).toList.map
        (Finding.diagnostic path) = ((before.findIdx? Node.isEnding).map fun ending =>
          ⟨.info, "unreachable-action", path, n.kind ++ " follows EndConversation at index " ++
            toString ending ++ " and will never run"⟩).toList := by
    cases before.findIdx? Node.isEnding <;> rfl
  rw [findings, Node.placedFindings, Node.findings, List.map_map, List.map_append, diagnostics,
    unreachable]
  congr 1
  · exact hunreachable _
  · cases n with
    | beginDialog id dialog =>
      by_cases hd : dialog ∈ known
      · simp [Node.unresolved, unresolved, hd]
      · simp [Node.unresolved, unresolved, hd]
        rfl
    | _ => rfl

end Visit

private theorem Dialog.path_of_mem_check {known : List String} {d : Dialog} {x : PlacedFinding}
    (hx : x ∈ d.check known) : ∃ way i, x.1 = placePath (topicPath d.displayName) way i := by
  obtain ⟨way, i, n, _, hx⟩ := (Node.mem_checkList known _ _ x).mp hx
  obtain ⟨f, _, rfl⟩ := List.mem_map.mp hx
  exact ⟨way, i, rfl⟩

namespace BotDocument

theorem nodup_check {d : BotDocument} (h : (d.dialogs.map Dialog.displayName).Nodup) :
    (d.check.map Node.findingKey).Nodup := by
  rw [check, List.map_flatMap, List.nodup_flatMap]
  refine ⟨fun dialog _ => Node.nodup_checkList _ _ _, ?_⟩
  apply (List.pairwise_map.mp h).imp
  intro dialog other hne key hkey hkey'
  obtain ⟨x, hx, rfl⟩ := List.mem_map.mp hkey
  obtain ⟨y, hy, heq⟩ := List.mem_map.mp hkey'
  obtain ⟨way, i, hpath⟩ := Dialog.path_of_mem_check hx
  obtain ⟨way', i', hpath'⟩ := Dialog.path_of_mem_check hy
  have hplace := hpath.symm.trans ((congrArg Prod.fst heq).symm.trans hpath')
  exact hne (placePath_topicPath_inj hplace).1

/-- The diagnostics of a document, dialog by dialog and depth first. -/
def diagnostics (d : BotDocument) : Diagnostics :=
  d.dialogs.flatMap fun dialog => (Node.visits [] dialog.trigger.actions).flatMap
    (Visit.diagnostics d.schemaNames (topicPath dialog.displayName))

theorem check_eq_visits (d : BotDocument) :
    d.check = d.dialogs.flatMap fun dialog => (Node.visits [] dialog.trigger.actions).flatMap
      (Visit.findings d.schemaNames (topicPath dialog.displayName)) :=
  List.flatMap_congr fun _ _ => Node.checkList_eq_visits _ _ _

private theorem map_diagnostic_check (d : BotDocument) :
    d.check.map (fun x => x.2.diagnostic x.1) = d.diagnostics := by
  rw [check_eq_visits, diagnostics, List.map_flatMap]
  refine List.flatMap_congr fun dialog _ => ?_
  rw [List.map_flatMap]
  exact List.flatMap_congr fun x _ => x.map_diagnostic_findings _ _

/-- Into any journal the check adds its diagnostics to those that are there. -/
@[simp] theorem diagnostics_after_inspect (d : BotDocument) (j : Journal) :
    (d.inspect j).2.diagnostics = j.diagnostics ++ d.diagnostics := by
  simp [d.adds_inspect j, map_diagnostic_check]

@[simp] theorem checkInto_eq (d : BotDocument) (ds : Diagnostics) :
    d.checkInto ds = ds ++ d.diagnostics :=
  d.diagnostics_after_inspect ⟨ds, []⟩

private theorem checkInto_iterate (d : BotDocument) (n : Nat) (ds : Diagnostics) :
    d.checkInto^[n] ds = ds ++ (List.replicate n d.diagnostics).flatten := by
  induction n generalizing ds with
  | zero => exact (List.append_nil ds).symm
  | succ n ih =>
    rw [Function.iterate_succ_apply, ih, checkInto_eq, List.append_assoc, List.replicate_succ,
      List.flatten_cons]

/-- The check leaves the diagnostics that are there and adds those of the document behind them, at
every run alike: for each dialog, and for each of its nodes depth first, whether the node is behind
an end of its own list and whether it begins a dialog that is not there. -/
theorem checkInto_exact (d : BotDocument) :
    (∀ ds, d.checkInto ds = ds ++ d.diagnostics) ∧
    (∀ n ds, d.checkInto^[n] ds = ds ++ (List.replicate n d.diagnostics).flatten) ∧
    (∀ j, (d.inspect j).2.diagnostics = j.diagnostics ++ d.diagnostics) ∧
    ∀ ns xs, Node.DepthFirst ns xs ↔ xs = Node.visits [] ns :=
  ⟨d.checkInto_eq, d.checkInto_iterate, d.diagnostics_after_inspect, Node.eq_visits_iff⟩

/-- Each list has ends of its own. -/
example :
    ((Node.visits [] [.endConversation "a",
      .conditionGroup "b" [⟨"c", "=true", [.endConversation "d", .endConversation "e"]⟩]
        [.beginDialog "f" "af_topic_None"]]).flatMap (Visit.diagnostics [] "p")).map
          (fun d => (d.code, d.context)) =
      [("unreachable-action", "p[1]"), ("unreachable-action", "p[1].conditions[0].then[1]"),
        ("unresolved-topic-reference", "p[1].else[0]")] := by decide

end BotDocument
end Botwright
