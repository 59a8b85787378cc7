import Botwright.Proofs.Compile.Visits

/-!
# Nodes mirror actions

The nodes of a list of actions agree with the actions one by one, and so do the lists inside them.
So a place leads to an action of the author exactly when it leads to a node, and what the check
finds there is told by the action.
-/

namespace Botwright.Action

/-- The node is that of the action, for some identifiers. -/
def Compiles (σ : Type) [IdSource σ] (publisher : String) (a : Action) (n : Node) : Prop :=
  ∃ s : σ, (node publisher a s).1 = n

section Nodes

variable {σ : Type} [IdSource σ] (publisher : String)

theorem forall₂_nodes (actions : List Action) (s : σ) :
    List.Forall₂ (Compiles σ publisher) actions (nodes publisher actions s).1 := by
  induction actions generalizing s with
  | nil => exact .nil
  | cons a rest ih => exact .cons ⟨s, rfl⟩ (ih (node publisher a s).2)

private theorem forall₂_conditionItems (branches : List (Branch Action)) (s : σ) (index : Nat) :
    List.Forall₂ (Compiles σ publisher) ((branches[index]?.map (·.actions)).getD [])
      (((conditionItems publisher branches s).1[index]?.map (·.actions)).getD []) := by
  induction branches generalizing s index with
  | nil => exact .nil
  | cons b rest ih =>
    cases index with
    | zero => exact forall₂_nodes publisher b.actions (IdSource.token s).2
    | succ index => exact ih (nodes publisher b.actions (IdSource.token s).2).2 index

variable {publisher}

theorem Compiles.inner {a : Action} {n : Node} (h : Compiles σ publisher a n) (arm : Arm) :
    List.Forall₂ (Compiles σ publisher) (a.inner arm) (n.inner arm) := by
  obtain ⟨s, rfl⟩ := h
  cases a with
  | condition branches otherwise =>
    have hitems := forall₂_conditionItems publisher branches (IdSource.token s).2
    cases otherwise with
    | none =>
      cases arm with
      | branch index => exact hitems index
      | otherwise => exact .nil
    | some actions =>
      cases arm with
      | branch index => exact hitems index
      | otherwise =>
        exact forall₂_nodes publisher actions
          (conditionItems publisher branches (IdSource.token s).2).2
  | _ => cases arm <;> exact .nil

end Nodes

def isEnding : Action → Bool
  | endConversation => true
  | _ => false

/-- The kind of the node of an action. An action that is not known leaves a message. -/
def nodeKind : Action → String
  | message _ | unrecognized .. | malformed .. => "SendActivity"
  | question .. => "Question"
  | condition .. => "ConditionGroup"
  | setVariable .. => "SetVariable"
  | callTopic _ | escalate => "BeginDialog"
  | callConnector .. => "InvokeConnectorAction"
  | callFlow .. => "InvokeFlowAction"
  | generativeAnswer => "SearchAndSummarizeContent"
  | endConversation => "EndConversation"

def target? : Action → Option String
  | callTopic topic => some topic
  | escalate => some "Escalate"
  | _ => none

/-- What is found about an action, behind others in its list. -/
def linkFindings (publisher : String) (known : List String) (before : List Action) (a : Action) :
    List Finding :=
  ((before.findIdx? isEnding).map (.unreachable a.nodeKind)).toList ++
    ((a.target?.toList.map (Naming.topic publisher)).filter (· ∉ known)).map .unresolvedTopic

section LinkFindings

variable {publisher : String} {known : List String} {before : List Action} {a : Action}

@[simp] theorem unreachable_mem_linkFindings {kind : String} {index : Nat} :
    .unreachable kind index ∈ a.linkFindings publisher known before ↔
      kind = a.nodeKind ∧ before.findIdx? isEnding = some index := by
  rw [linkFindings]
  cases before.findIdx? isEnding with
  | none => simp
  | some ending => simp [@eq_comm _ kind, @eq_comm _ index]

@[simp] theorem unresolved_mem_linkFindings {schemaName : String} :
    .unresolvedTopic schemaName ∈ a.linkFindings publisher known before ↔
      ∃ topic, a.target? = some topic ∧ Naming.topic publisher topic = schemaName ∧
        schemaName ∉ known := by
  have hunreachable : Finding.unresolvedTopic schemaName ∉
      ((before.findIdx? isEnding).map (.unreachable a.nodeKind)).toList := by
    cases before.findIdx? isEnding <;> simp
  rw [linkFindings, List.mem_append, or_iff_right hunreachable]
  simp only [List.mem_map, List.mem_filter, Option.mem_toList, decide_eq_true_eq,
    Finding.unresolvedTopic.injEq]
  constructor
  · rintro ⟨_, ⟨⟨topic, ht, rfl⟩, hk⟩, rfl⟩
    exact ⟨topic, ht, rfl, hk⟩
  · rintro ⟨topic, ht, rfl, hk⟩
    exact ⟨_, ⟨⟨topic, ht, rfl⟩, hk⟩, rfl⟩

theorem linkFindings_cases {f : Finding} (h : f ∈ a.linkFindings publisher known before) :
    (∃ schemaName, f = .unresolvedTopic schemaName) ∨
      ∃ kind index, f = .unreachable kind index := by
  rcases List.mem_append.mp h with h | h
  · obtain ⟨index, _, rfl⟩ := Option.map_eq_some_iff.mp (Option.mem_toList.mp h)
    exact Or.inr ⟨_, index, rfl⟩
  · obtain ⟨schemaName, _, rfl⟩ := List.mem_map.mp h
    exact Or.inl ⟨schemaName, rfl⟩

end LinkFindings

section Nodes

variable {σ : Type} [IdSource σ] {publisher : String} {a : Action} {n : Node}

private theorem Compiles.isEnding_eq (h : Compiles σ publisher a n) : n.isEnding = a.isEnding := by
  obtain ⟨s, rfl⟩ := h
  cases a with
  | condition branches otherwise => cases otherwise <;> rfl
  | _ => rfl

private theorem Compiles.kind_eq (h : Compiles σ publisher a n) : n.kind = a.nodeKind := by
  obtain ⟨s, rfl⟩ := h
  cases a with
  | condition branches otherwise => cases otherwise <;> rfl
  | _ => rfl

private theorem Compiles.unresolved_eq (h : Compiles σ publisher a n) (known : List String) :
    n.unresolved known =
      ((a.target?.toList.map (Naming.topic publisher)).filter (· ∉ known)).map
        .unresolvedTopic := by
  obtain ⟨s, rfl⟩ := h
  have hdialog (topic id : String) :
      (Node.beginDialog id (Naming.topic publisher topic)).unresolved known =
        (([topic].map (Naming.topic publisher)).filter (· ∉ known)).map .unresolvedTopic := by
    by_cases hk : Naming.topic publisher topic ∈ known <;> simp [Node.unresolved, hk]
  cases a with
  | condition branches otherwise => cases otherwise <;> rfl
  | callTopic topic => exact hdialog topic _
  | escalate => exact hdialog "Escalate" _
  | _ => rfl

private theorem findIdx?_of_forall₂ {actions : List Action} {ns : List Node}
    (h : List.Forall₂ (Compiles σ publisher) actions ns) :
    ns.findIdx? Node.isEnding = actions.findIdx? isEnding := by
  induction h with
  | nil => rfl
  | cons hab _ ih => rw [List.findIdx?_cons, List.findIdx?_cons, hab.isEnding_eq, ih]

private theorem Compiles.findings_eq (h : Compiles σ publisher a n) {before : List Action}
    {ns : List Node} (hb : List.Forall₂ (Compiles σ publisher) before ns) (known : List String) :
    n.findings known ns = a.linkFindings publisher known before := by
  rw [Node.findings, linkFindings, findIdx?_of_forall₂ hb, h.kind_eq, h.unresolved_eq]

theorem mem_checkList_nodes (known : List String) (path : String) (actions : List Action) (s : σ)
    (x : PlacedFinding) :
    x ∈ Node.checkList known path 0 none (nodes publisher actions s).1 ↔
      ∃ way i a, (descend inner way actions)[i]? = some a ∧ x.1 = placePath path way i ∧
        x.2 ∈ a.linkFindings publisher known ((descend inner way actions).take i) := by
  have hmirror (way : List Descent) : List.Forall₂ (Compiles σ publisher)
      (descend inner way actions) (descend Node.inner way (nodes publisher actions s).1) :=
    forall₂_descend inner (fun _ _ h => h.inner) (forall₂_nodes publisher actions s) way
  rw [Node.mem_checkList]
  constructor
  · rintro ⟨way, i, n, hn, hx⟩
    have hat := getElem?_of_forall₂ (hmirror way) i
    rw [hn] at hat
    generalize ha : (descend inner way actions)[i]? = o at hat
    cases hat with
    | some hcompiles =>
      obtain ⟨f, hf, rfl⟩ := List.mem_map.mp hx
      rw [hcompiles.findings_eq (List.forall₂_take i (hmirror way))] at hf
      exact ⟨way, i, _, ha, rfl, hf⟩
  · rintro ⟨way, i, a, ha, hpath, hf⟩
    have hat := getElem?_of_forall₂ (hmirror way) i
    rw [ha] at hat
    generalize hn : (descend Node.inner way (nodes publisher actions s).1)[i]? = o at hat
    cases hat with
    | some hcompiles =>
      rw [← hcompiles.findings_eq (List.forall₂_take i (hmirror way))] at hf
      exact ⟨way, i, _, hn, List.mem_map.mpr ⟨x.2, hf, by rw [← hpath]⟩⟩

end Nodes
end Botwright.Action
