import Botwright.Compile.References
import Botwright.Proofs.Compile.Recording
import Mathlib.Data.List.Basic

/-!
# The check of a document as a list of findings

What the check of a document records is told by a list of findings with their places. A reference
that does not resolve is warned of and reported, a node behind an end is only reported.
-/

namespace Botwright

/-- A finding with its place. -/
abbrev PlacedFinding := String × Finding

open Recording

def PlacedFinding.record : PlacedFinding → Recording Unit
  | (path, .unresolvedTopic schemaName) => Node.warnUnresolved path schemaName
  | (path, finding) => report path finding

theorem PlacedFinding.adds_record (x : PlacedFinding) : Adds x.record := by
  obtain ⟨path, finding⟩ := x
  cases finding with
  | unresolvedTopic schemaName => exact (adds_log _).bind (adds_report path _)
  | _ => exact adds_report path _

@[simp] theorem PlacedFinding.diagnostics_record (x : PlacedFinding) :
    (written x.record).diagnostics = [x.2.diagnostic x.1] := by
  obtain ⟨path, finding⟩ := x
  cases finding <;> rfl

namespace Node

/-- The finding about a node behind the end of its list. -/
def reachability (path : String) (ended : Option Nat) (n : Node) : List PlacedFinding :=
  match ended with
  | none => []
  | some ending => [(path, .unreachable n.kind ending)]

mutual

/-- The findings about a node and the nodes below it, given the known schema names. -/
def check (known : List String) (path : String) : Node → List PlacedFinding
  | beginDialog _ dialog =>
      if dialog ∈ known then [] else [(path, .unresolvedTopic dialog)]
  | conditionGroup _ items otherwise =>
      checkItems known path 0 items ++ checkList known (elsePath path) 0 none otherwise
  | _ => []

def checkItems (known : List String) (path : String) :
    Nat → List (ConditionItem Node) → List PlacedFinding
  | _, [] => []
  | index, ⟨_, _, actions⟩ :: rest =>
      checkList known (branchPath path index) 0 none actions ++
        checkItems known path (index + 1) rest

def checkList (known : List String) (path : String) :
    Nat → Option Nat → List Node → List PlacedFinding
  | _, _, [] => []
  | index, ended, n :: rest =>
      let here := elementPath path index
      reachability here ended n ++ check known here n ++
        checkList known path (index + 1) (if ended.isNone && n.isEnding then some index else ended)
          rest

end

private theorem inspectReach_eq (path : String) (ended : Option Nat) (n : Node) :
    inspectReach path ended n = forM (reachability path ended n) PlacedFinding.record := by
  cases ended <;> rfl

mutual

theorem inspect_eq (known : List String) (path : String) (n : Node) :
    inspect known path n = forM (check known path n) PlacedFinding.record := by
  cases n with
  | beginDialog id dialog =>
    by_cases hd : dialog ∈ known
    · rw [inspect, check, if_pos hd, if_pos hd]
      rfl
    · rw [inspect, check, if_neg hd, if_neg hd]
      rfl
  | conditionGroup id items otherwise =>
    rw [inspect, check, List.forM_append, inspectItems_eq known path 0 items,
      inspectList_eq known (elsePath path) 0 none otherwise]
  | _ => rfl

private theorem inspectItems_eq (known : List String) (path : String) (index : Nat)
    (items : List (ConditionItem Node)) :
    inspectItems known path index items =
      forM (checkItems known path index items) PlacedFinding.record := by
  cases items with
  | nil => rfl
  | cons item rest =>
    obtain ⟨id, condition, actions⟩ := item
    rw [inspectItems, checkItems, List.forM_append,
      inspectList_eq known (branchPath path index) 0 none actions,
      inspectItems_eq known path (index + 1) rest]

private theorem inspectList_eq (known : List String) (path : String) (index : Nat)
    (ended : Option Nat) (ns : List Node) :
    inspectList known path index ended ns =
      forM (checkList known path index ended ns) PlacedFinding.record := by
  cases ns with
  | nil => rfl
  | cons n rest =>
    simp [inspectList, checkList, inspectReach_eq, inspect_eq known (elementPath path index) n,
      inspectList_eq known path (index + 1) _ rest]

end
end Node

def Dialog.check (known : List String) (d : Dialog) : List PlacedFinding :=
  Node.checkList known (topicPath d.displayName) 0 none d.trigger.actions

theorem Dialog.inspect_eq (known : List String) (d : Dialog) :
    d.inspect known = forM (d.check known) PlacedFinding.record :=
  Node.inspectList_eq known _ 0 none _

namespace BotDocument

/-- Everything found in a document, dialog by dialog and depth first. -/
def check (d : BotDocument) : List PlacedFinding :=
  d.dialogs.flatMap (Dialog.check d.schemaNames)

theorem inspect_eq (d : BotDocument) : d.inspect = forM d.check PlacedFinding.record := by
  have hdialogs (known : List String) (dialogs : List Dialog) :
      forM dialogs (Dialog.inspect known) =
        forM (dialogs.flatMap (Dialog.check known)) PlacedFinding.record := by
    induction dialogs with
    | nil => rfl
    | cons dialog rest ih =>
      simp [dialog.inspect_eq, ih]
  exact hdialogs d.schemaNames d.dialogs

theorem adds_inspect (d : BotDocument) : Adds d.inspect := by
  rw [d.inspect_eq]
  exact adds_forM PlacedFinding.adds_record d.check

@[simp] theorem diagnostics_inspect (d : BotDocument) :
    (written d.inspect).diagnostics = d.check.map fun x => x.2.diagnostic x.1 := by
  rw [d.inspect_eq, diagnostics_written_forM PlacedFinding.adds_record, List.map_eq_flatMap]
  exact List.flatMap_congr fun x _ => x.diagnostics_record

end BotDocument
end Botwright
