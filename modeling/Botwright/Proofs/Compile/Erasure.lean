import Botwright.Proofs.Compile.Check
import Botwright.Proofs.Compile.Assembly

/-!
# Documents without their identifiers

Erasing a document takes the unique identifiers out of it and the tokens out of its ids, and
nothing else: with them the document is whole again. The check of a document finds the same in what
is left.
-/

namespace Botwright

def blankId : Option String → String → String
  | none, _ => ""
  | some stem, id => if (stem ++ "_").toList <+: id.toList then stem ++ "_" else id

@[simp] theorem blankId_idOf (stem : Option String) (token : String) :
    blankId stem (idOf stem token) = idOf stem "" := by
  cases stem with
  | none => rfl
  | some stem => simp [blankId, idOf]

namespace Node

def withId (id : String) : Node → Node
  | sendActivity _ outcome activity => sendActivity id outcome activity
  | question _ answer prompt entity => question id answer prompt entity
  | conditionGroup _ items otherwise => conditionGroup id items otherwise
  | setVariable _ name value => setVariable id name value
  | beginDialog _ dialog => beginDialog id dialog
  | invokeConnector _ connection operation inputs => invokeConnector id connection operation inputs
  | invokeFlow _ flow inputs => invokeFlow id flow inputs
  | searchAndSummarize _ input answer => searchAndSummarize id input answer
  | endConversation _ => endConversation id
  | cancelAllDialogs _ => cancelAllDialogs id

mutual

/-- A node without the tokens of its own id and of all ids below it. -/
def blank : Node → Node
  | conditionGroup id items otherwise =>
      conditionGroup (blankId (some "conditionGroup") id) (blankItems items) (blankList otherwise)
  | n => n.withId (blankId n.stem n.id)

def blankItems : List (ConditionItem Node) → List (ConditionItem Node)
  | [] => []
  | ⟨id, condition, actions⟩ :: rest =>
      ⟨blankId itemStem id, condition, blankList actions⟩ :: blankItems rest

def blankList : List Node → List Node
  | [] => []
  | n :: rest => blank n :: blankList rest

end

/-! ## Nothing but identifiers is erased -/

@[simp] theorem withId_withId (n : Node) (id other : String) :
    (n.withId id).withId other = n.withId other := by
  cases n <;> rfl

@[simp] theorem withId_id (n : Node) : n.withId n.id = n := by
  cases n <;> rfl

@[simp] theorem kind_blank (n : Node) : n.blank.kind = n.kind := by
  cases n <;> rfl

private theorem blank_of_leaf {n : Node} (h : n.kind ≠ "ConditionGroup") :
    n.blank = n.withId (blankId n.stem n.id) ∧ n.ids = [n.id] := by
  cases n with
  | conditionGroup id items otherwise => exact absurd rfl h
  | _ => exact ⟨rfl, rfl⟩

mutual

@[simp] theorem length_ids_blank : ∀ n : Node, n.blank.ids.length = n.ids.length
  | sendActivity .. => rfl
  | question .. => rfl
  | conditionGroup _ items otherwise => by
      simp only [blank, ids, List.length_append, List.length_cons]
      rw [length_idsOfItems_blankItems items, length_idsOfList_blankList otherwise]
  | setVariable .. => rfl
  | beginDialog .. => rfl
  | invokeConnector .. => rfl
  | invokeFlow .. => rfl
  | searchAndSummarize .. => rfl
  | endConversation _ => rfl
  | cancelAllDialogs _ => rfl

@[simp] theorem length_idsOfItems_blankItems : ∀ items : List (ConditionItem Node),
    (idsOfItems (blankItems items)).length = (idsOfItems items).length
  | [] => rfl
  | ⟨_, _, actions⟩ :: rest => by
      simp only [blankItems, idsOfItems, List.length_append, List.length_cons]
      rw [length_idsOfList_blankList actions, length_idsOfItems_blankItems rest]

@[simp] theorem length_idsOfList_blankList : ∀ ns : List Node,
    (idsOfList (blankList ns)).length = (idsOfList ns).length
  | [] => rfl
  | n :: rest => by
      simp only [blankList, idsOfList, List.length_append]
      rw [length_ids_blank n, length_idsOfList_blankList rest]

end

private theorem length_idsOfList_of_blankList {ns ms : List Node}
    (h : blankList ns = blankList ms) :
    (idsOfList ns).length = (idsOfList ms).length := by
  rw [← length_idsOfList_blankList ns, h, length_idsOfList_blankList ms]

private theorem eq_of_blank_of_leaf {n m : Node} (hn : n.kind ≠ "ConditionGroup")
    (h : n.blank = m.blank) (hids : n.ids = m.ids) : n = m := by
  have hm : m.kind ≠ "ConditionGroup" := by rwa [← kind_blank m, ← h, kind_blank n]
  obtain ⟨hblank, hid⟩ := blank_of_leaf hn
  obtain ⟨hblank', hid'⟩ := blank_of_leaf hm
  rw [hid, hid', List.cons.injEq] at hids
  rw [hblank, hblank'] at h
  calc n = (n.withId (blankId n.stem n.id)).withId n.id := by simp
    _ = (m.withId (blankId m.stem m.id)).withId m.id := by rw [h, hids.1]
    _ = m := by simp

mutual

/-- What is left of a node together with its ids is all of the node. -/
theorem eq_of_blank : ∀ n m : Node, n.blank = m.blank → n.ids = m.ids → n = m
  | conditionGroup id items otherwise, m, h, hids => by
      have hkind : "ConditionGroup" = m.kind := by
        rw [← kind_blank m, ← h]
        rfl
      cases m with
      | conditionGroup id' items' otherwise' =>
        simp only [blank, conditionGroup.injEq] at h
        obtain ⟨_, hitems, hotherwise⟩ := h
        have hlength : (idsOfItems items).length = (idsOfItems items').length := by
          rw [← length_idsOfItems_blankItems items, hitems, length_idsOfItems_blankItems items']
        simp only [ids, List.cons_append, List.cons.injEq] at hids
        obtain ⟨rfl, hrest⟩ := hids
        obtain ⟨hfirst, hsecond⟩ := List.append_inj hrest hlength
        rw [eq_of_blankItems items items' hitems hfirst,
          eq_of_blankList otherwise otherwise' hotherwise hsecond]
      | _ => exact absurd hkind (by simp [kind])
  | sendActivity .., _, h, hids => eq_of_blank_of_leaf (by simp [kind]) h hids
  | question .., _, h, hids => eq_of_blank_of_leaf (by simp [kind]) h hids
  | setVariable .., _, h, hids => eq_of_blank_of_leaf (by simp [kind]) h hids
  | beginDialog .., _, h, hids => eq_of_blank_of_leaf (by simp [kind]) h hids
  | invokeConnector .., _, h, hids => eq_of_blank_of_leaf (by simp [kind]) h hids
  | invokeFlow .., _, h, hids => eq_of_blank_of_leaf (by simp [kind]) h hids
  | searchAndSummarize .., _, h, hids => eq_of_blank_of_leaf (by simp [kind]) h hids
  | endConversation _, _, h, hids => eq_of_blank_of_leaf (by simp [kind]) h hids
  | cancelAllDialogs _, _, h, hids => eq_of_blank_of_leaf (by simp [kind]) h hids

private theorem eq_of_blankItems : ∀ items items' : List (ConditionItem Node),
    blankItems items = blankItems items' → idsOfItems items = idsOfItems items' → items = items'
  | [], [], _, _ => rfl
  | [], _ :: _, h, _ => nomatch h
  | _ :: _, [], h, _ => nomatch h
  | ⟨id, condition, actions⟩ :: rest, ⟨id', condition', actions'⟩ :: rest', h, hids => by
      simp only [blankItems, List.cons.injEq, ConditionItem.mk.injEq] at h
      obtain ⟨⟨_, rfl, hactions⟩, hrest⟩ := h
      simp only [idsOfItems, List.cons_append, List.cons.injEq] at hids
      obtain ⟨rfl, hids⟩ := hids
      obtain ⟨hfirst, hsecond⟩ := List.append_inj hids (length_idsOfList_of_blankList hactions)
      rw [eq_of_blankList actions actions' hactions hfirst,
        eq_of_blankItems rest rest' hrest hsecond]

private theorem eq_of_blankList : ∀ ns ms : List Node,
    blankList ns = blankList ms → idsOfList ns = idsOfList ms → ns = ms
  | [], [], _, _ => rfl
  | [], _ :: _, h, _ => nomatch h
  | _ :: _, [], h, _ => nomatch h
  | n :: rest, m :: rest', h, hids => by
      simp only [blankList, List.cons.injEq] at h
      obtain ⟨hn, hrest⟩ := h
      have hlength : n.ids.length = m.ids.length := by
        rw [← length_ids_blank n, hn, length_ids_blank m]
      obtain ⟨hfirst, hsecond⟩ := List.append_inj hids hlength
      rw [eq_of_blank n m hn hfirst, eq_of_blankList rest rest' hrest hsecond]

end

/-! ## The check sees no identifiers -/

@[simp] theorem isEnding_blank (n : Node) : n.blank.isEnding = n.isEnding := by
  cases n <;> rfl

@[simp] theorem reachability_blank (path : String) (ended : Option Nat) (n : Node) :
    reachability path ended n.blank = reachability path ended n := by
  cases ended with
  | none => rfl
  | some ending => simp [reachability]

mutual

@[simp] theorem check_blank (known : List String) (path : String) : ∀ n : Node,
    check known path n.blank = check known path n
  | sendActivity .. => rfl
  | question .. => rfl
  | conditionGroup _ items otherwise => by
      simp only [blank, check]
      rw [checkItems_blankItems known path 0 items,
        checkList_blankList known (elsePath path) 0 none otherwise]
  | setVariable .. => rfl
  | beginDialog .. => rfl
  | invokeConnector .. => rfl
  | invokeFlow .. => rfl
  | searchAndSummarize .. => rfl
  | endConversation _ => rfl
  | cancelAllDialogs _ => rfl

@[simp] theorem checkItems_blankItems (known : List String) (path : String) :
    ∀ (index : Nat) (items : List (ConditionItem Node)),
      checkItems known path index (blankItems items) = checkItems known path index items
  | _, [] => rfl
  | index, ⟨_, _, actions⟩ :: rest => by
      simp only [blankItems, checkItems]
      rw [checkList_blankList known (branchPath path index) 0 none actions,
        checkItems_blankItems known path (index + 1) rest]

@[simp] theorem checkList_blankList (known : List String) (path : String) :
    ∀ (index : Nat) (ended : Option Nat) (ns : List Node),
      checkList known path index ended (blankList ns) = checkList known path index ended ns
  | _, _, [] => rfl
  | index, ended, n :: rest => by
      simp only [blankList, checkList]
      rw [reachability_blank, check_blank known (elementPath path index) n, isEnding_blank,
        checkList_blankList known path (index + 1) _ rest]

end
end Node

def Uuid.zero : Uuid := ofNat 0

def Dialog.blank (d : Dialog) : Dialog :=
  { d with
    parentBotId := .zero
    trigger := { d.trigger with actions := Node.blankList d.trigger.actions } }

theorem Dialog.blank_eq {d e : Dialog}
    (hactions : Node.blankList d.trigger.actions = e.trigger.actions)
    (hrest : { d with
      parentBotId := .zero, trigger := { d.trigger with actions := e.trigger.actions } } = e) :
    d.blank = e := by
  rw [blank, hactions, hrest]

namespace Component

def blank : Component → Component
  | dialog d => dialog d.blank
  | instructions i => instructions { i with parentBotId := .zero }

@[simp] theorem key_blank (c : Component) : c.blank.key = c.key := by
  cases c <;> rfl

end Component

@[simp] theorem Component.length_ids_blank (c : Component) : c.blank.ids.length = c.ids.length := by
  cases c with
  | dialog d => exact Node.length_idsOfList_blankList d.trigger.actions
  | instructions i => rfl

theorem Component.eq_of_blank {c c' : Component} (h : c.blank = c'.blank)
    (hparent : c.parentBotId = c'.parentBotId) (hids : c.ids = c'.ids) : c = c' := by
  cases c with
  | dialog d =>
    cases c' with
    | dialog d' =>
      obtain ⟨customizable, title, parent, description, context, state, status, schemaName, start,
        kind, id, intent, actions⟩ := d
      obtain ⟨customizable', title', parent', description', context', state', status', schemaName',
        start', kind', id', intent', actions'⟩ := d'
      simp only [blank, Dialog.blank, dialog.injEq, Dialog.mk.injEq, Trigger.mk.injEq] at h
      obtain ⟨rfl, rfl, -, rfl, rfl, rfl, rfl, rfl, rfl, rfl, rfl, rfl, hactions⟩ := h
      obtain rfl : parent = parent' := hparent
      rw [Node.eq_of_blankList actions actions' hactions hids]
    | instructions i => cases h
  | instructions i =>
    cases c' with
    | dialog d => cases h
    | instructions i' =>
      cases i
      cases i'
      simp_all [blank, parentBotId]

private theorem Component.eq_of_blank_of_map {cs cs' : List Component}
    (h : cs.map Component.blank = cs'.map Component.blank)
    (hparents : cs.map Component.parentBotId = cs'.map Component.parentBotId)
    (hids : cs.flatMap Component.ids = cs'.flatMap Component.ids) : cs = cs' := by
  induction cs generalizing cs' with
  | nil => exact (List.map_eq_nil_iff.mp h.symm).symm
  | cons c cs ih =>
    cases cs' with
    | nil => cases h
    | cons c' cs' =>
      obtain ⟨hc, hcs⟩ := List.cons.inj h
      obtain ⟨hparent, hparents⟩ := List.cons.inj hparents
      have hlength : c.ids.length = c'.ids.length := by
        rw [← c.length_ids_blank, hc, c'.length_ids_blank]
      obtain ⟨hfirst, hrest⟩ := List.append_inj hids hlength
      rw [Component.eq_of_blank hc hparent hfirst, ih hcs hparents hrest]

namespace BotDocument

/-- A document without its unique identifiers and without the tokens of its ids. -/
def blank (d : BotDocument) : BotDocument :=
  { d with
    entity := { d.entity with botId := .zero, componentId := .zero }
    components := d.components.map Component.blank }

@[simp] theorem schemaNames_blank (d : BotDocument) : d.blank.schemaNames = d.schemaNames := by
  rw [schemaNames, blank, List.map_map, schemaNames]
  apply List.map_congr_left
  intro c _
  exact congrArg Prod.fst c.key_blank

@[simp] theorem dialogs_blank (d : BotDocument) : d.blank.dialogs = d.dialogs.map Dialog.blank := by
  rw [dialogs, blank, dialogs, List.filterMap_map, List.map_filterMap]
  apply List.filterMap_congr
  intro c _
  cases c <;> rfl

/-- What is left of a document together with all that was erased is the whole document. -/
theorem eq_of_blank {d e : BotDocument} (h : d.blank = e.blank)
    (hbot : d.entity.botId = e.entity.botId)
    (hcomponent : d.entity.componentId = e.entity.componentId)
    (hparents : d.components.map Component.parentBotId = e.components.map Component.parentBotId)
    (hids : d.ids = e.ids) : d = e := by
  obtain ⟨kind, environment, entity, components⟩ := d
  obtain ⟨kind', environment', entity', components'⟩ := e
  simp only [blank, mk.injEq] at h
  obtain ⟨rfl, rfl, hentity, hcomponents⟩ := h
  have hentities : entity = entity' := by
    cases entity
    cases entity'
    simp_all
  rw [hentities, Component.eq_of_blank_of_map hcomponents hparents hids]

@[simp] theorem check_blank (d : BotDocument) : d.blank.check = d.check := by
  rw [check, check, dialogs_blank, schemaNames_blank, List.flatMap_map]
  apply List.flatMap_congr
  intro dialog _
  exact Node.checkList_blankList _ _ _ _ _

end BotDocument

end Botwright
