import Botwright.Compile.Actions
import Botwright.Proofs.Identifier.Draws

/-!
# The ids of compiled actions

A mark is the id of a node or of a condition item together with the stem that its kind prescribes.
Compiling actions draws one token for each mark, in the depth-first order of the marks, and draws
nothing else; how many there are is counted on the actions alone.
-/

namespace Botwright

def idOf : Option String → String → String
  | none, token => token
  | some stem, token => stem ++ "_" ++ token

/-- An id at its place in a document. -/
structure Mark where
  stem : Option String
  id : String

namespace Node

def stem : Node → Option String
  | sendActivity .. => some "sendMessage"
  | question .. => some "question"
  | conditionGroup .. => some "conditionGroup"
  | setVariable .. => some "setVariable"
  | beginDialog .. => none
  | invokeConnector .. => some "connector"
  | invokeFlow .. => some "flow"
  | searchAndSummarize .. => some "search"
  | endConversation _ => some "endConversation"
  | cancelAllDialogs _ => some "cancelAllDialogs"

def itemStem : Option String := some "conditionItem"

mutual

/-- The marks of a node and of all nodes and condition items below it, depth first. -/
def marks : Node → List Mark
  | conditionGroup id items otherwise =>
      ⟨(conditionGroup id items otherwise).stem, id⟩ :: marksOfItems items ++ marksOfList otherwise
  | n => [⟨n.stem, n.id⟩]

def marksOfItems : List (ConditionItem Node) → List Mark
  | [] => []
  | ⟨id, _, actions⟩ :: rest => ⟨itemStem, id⟩ :: marksOfList actions ++ marksOfItems rest

def marksOfList : List Node → List Mark
  | [] => []
  | n :: rest => marks n ++ marksOfList rest

end

mutual

theorem map_id_marks : ∀ n : Node, n.marks.map Mark.id = n.ids
  | sendActivity .. => rfl
  | question .. => rfl
  | conditionGroup id items otherwise => by
      simp only [marks, ids, List.map_cons, List.map_append, List.cons_append]
      rw [map_id_marksOfItems items, map_id_marksOfList otherwise]
  | setVariable .. => rfl
  | beginDialog .. => rfl
  | invokeConnector .. => rfl
  | invokeFlow .. => rfl
  | searchAndSummarize .. => rfl
  | endConversation _ => rfl
  | cancelAllDialogs _ => rfl

private theorem map_id_marksOfItems :
    ∀ items : List (ConditionItem Node), (marksOfItems items).map Mark.id = idsOfItems items
  | [] => rfl
  | ⟨id, _, actions⟩ :: rest => by
      simp only [marksOfItems, idsOfItems, List.map_cons, List.map_append, List.cons_append]
      rw [map_id_marksOfList actions, map_id_marksOfItems rest]

theorem map_id_marksOfList : ∀ ns : List Node, (marksOfList ns).map Mark.id = idsOfList ns
  | [] => rfl
  | n :: rest => by
      simp only [marksOfList, idsOfList, List.map_append]
      rw [map_id_marks n, map_id_marksOfList rest]

end
end Node

/-- The marks carry consecutive tokens of a source, which stands at `s'` behind them. -/
inductive Allotted {σ : Type} [IdSource σ] : List Mark → σ → σ → Prop where
  | nil (s : σ) : Allotted [] s s
  | cons {stem : Option String} {ms : List Mark} {s s' : σ}
      (rest : Allotted ms (IdSource.token s).2 s') :
      Allotted (⟨stem, idOf stem (IdSource.token s).1⟩ :: ms) s s'

namespace Allotted

variable {σ : Type} [IdSource σ]

theorem single (stem : Option String) (s : σ) :
    Allotted [⟨stem, idOf stem (IdSource.token s).1⟩] s (IdSource.token s).2 :=
  .cons (.nil _)

theorem append {ms ns : List Mark} {s s' s'' : σ} (h : Allotted ms s s')
    (h' : Allotted ns s' s'') : Allotted (ms ++ ns) s s'' := by
  induction h with
  | nil => exact h'
  | cons _ ih => exact .cons (ih h')

theorem source_eq {ms : List Mark} {s s' : σ} (h : Allotted ms s s') :
    s' = IdSource.after (List.replicate ms.length .token) s := by
  induction h with
  | nil => rfl
  | cons _ ih => exact ih

end Allotted

namespace Action

mutual

def idCount : Action → Nat
  | condition branches none => 1 + idCountOfBranches branches
  | condition branches (some otherwise) =>
      1 + idCountOfBranches branches + idCountOfList otherwise
  | _ => 1

def idCountOfBranches : List (Branch Action) → Nat
  | [] => 0
  | ⟨_, actions⟩ :: rest => 1 + idCountOfList actions + idCountOfBranches rest

def idCountOfList : List Action → Nat
  | [] => 0
  | a :: rest => idCount a + idCountOfList rest

end

variable {σ : Type} [IdSource σ]

mutual

/-- An action draws the id of its node first and then, depth first, those of the nodes inside. -/
theorem node_allotted (publisher : String) : ∀ (a : Action) (s : σ),
    Allotted (node publisher a s).1.marks s (node publisher a s).2
  | message _, s => .single (some "sendMessage") s
  | question _ _ _, s => .single (some "question") s
  | condition branches none, s => by
      have hitems := conditionItems_allotted publisher branches (IdSource.token s).2
      exact (Allotted.single (some "conditionGroup") s).append (hitems.append (.nil _))
  | condition branches (some otherwise), s => by
      have hitems := conditionItems_allotted publisher branches (IdSource.token s).2
      have hotherwise := nodes_allotted publisher otherwise
        (conditionItems publisher branches (IdSource.token s).2).2
      exact (Allotted.single (some "conditionGroup") s).append (hitems.append hotherwise)
  | setVariable _ _, s => .single (some "setVariable") s
  | callTopic _, s => .single none s
  | callConnector _ _ _, s => .single (some "connector") s
  | callFlow _ _, s => .single (some "flow") s
  | generativeAnswer, s => .single (some "search") s
  | endConversation, s => .single (some "endConversation") s
  | escalate, s => .single none s
  | unrecognized _ _, s => .single (some "sendMessage") s
  | malformed _ _ _, s => .single (some "sendMessage") s

private theorem conditionItems_allotted (publisher : String) :
    ∀ (branches : List (Branch Action)) (s : σ),
    Allotted (Node.marksOfItems (conditionItems publisher branches s).1) s
      (conditionItems publisher branches s).2
  | [], s => .nil s
  | ⟨_, actions⟩ :: rest, s => by
      have hactions := nodes_allotted publisher actions (IdSource.token s).2
      have hrest := conditionItems_allotted publisher rest
        (nodes publisher actions (IdSource.token s).2).2
      exact (Allotted.single Node.itemStem s).append (hactions.append hrest)

theorem nodes_allotted (publisher : String) : ∀ (actions : List Action) (s : σ),
    Allotted (Node.marksOfList (nodes publisher actions s).1) s (nodes publisher actions s).2
  | [], s => .nil s
  | a :: rest, s =>
      (node_allotted publisher a s).append (nodes_allotted publisher rest (node publisher a s).2)

end

mutual

private theorem length_marks_node (publisher : String) : ∀ (a : Action) (s : σ),
    (node publisher a s).1.marks.length = a.idCount
  | message _, _ => rfl
  | question _ _ _, _ => rfl
  | condition branches none, s => by
      have hitems := length_marks_conditionItems publisher branches (IdSource.token s).2
      change (_ :: Node.marksOfItems _ ++ []).length = 1 + idCountOfBranches branches
      rw [List.append_nil, List.length_cons, ← hitems, Nat.add_comm]
      rfl
  | condition branches (some otherwise), s => by
      have hitems := length_marks_conditionItems publisher branches (IdSource.token s).2
      have hotherwise := length_marks_nodes publisher otherwise
        (conditionItems publisher branches (IdSource.token s).2).2
      change (_ :: Node.marksOfItems _ ++ Node.marksOfList _).length =
        1 + idCountOfBranches branches + idCountOfList otherwise
      rw [List.length_append, List.length_cons, ← hitems, ← hotherwise, Nat.add_comm 1]
      rfl
  | setVariable _ _, _ => rfl
  | callTopic _, _ => rfl
  | callConnector _ _ _, _ => rfl
  | callFlow _ _, _ => rfl
  | generativeAnswer, _ => rfl
  | endConversation, _ => rfl
  | escalate, _ => rfl
  | unrecognized _ _, _ => rfl
  | malformed _ _ _, _ => rfl

private theorem length_marks_conditionItems (publisher : String) :
    ∀ (branches : List (Branch Action)) (s : σ),
      (Node.marksOfItems (conditionItems publisher branches s).1).length =
        idCountOfBranches branches
  | [], _ => rfl
  | ⟨_, actions⟩ :: rest, s => by
      have hactions := length_marks_nodes publisher actions (IdSource.token s).2
      have hrest := length_marks_conditionItems publisher rest
        (nodes publisher actions (IdSource.token s).2).2
      change (_ :: Node.marksOfList _ ++ Node.marksOfItems _).length =
        1 + idCountOfList actions + idCountOfBranches rest
      rw [List.length_append, List.length_cons, ← hactions, ← hrest, Nat.add_comm 1]
      rfl

theorem length_marks_nodes (publisher : String) : ∀ (actions : List Action) (s : σ),
    (Node.marksOfList (nodes publisher actions s).1).length = idCountOfList actions
  | [], _ => rfl
  | a :: rest, s => by
      have ha := length_marks_node publisher a s
      have hrest := length_marks_nodes publisher rest (node publisher a s).2
      change (Node.marks _ ++ Node.marksOfList _).length = idCount a + idCountOfList rest
      rw [List.length_append, ← ha, ← hrest]

end
end Action
end Botwright
