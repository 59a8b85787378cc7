import Botwright.Proofs.Compile.Check
import Botwright.Proofs.SchemaNames

/-!
# Documents under another publisher

The publisher stands in front of the names that a document is made of: those of its entity and its
components, and those of the dialogs that its nodes begin. Renaming exchanges it in these names and
nowhere else. It neither makes nor breaks a reference, so the check of a renamed document finds the
same at the same places.
-/

namespace Botwright

namespace Naming

/-- A name that begins with the publisher, as every schema name does. -/
def OfPublisher (publisher name : String) : Prop := ∃ rest, name = publisher ++ "_" ++ rest

/-- Exchanges the publisher in front of a name; a name without it stays. -/
def rename (old new name : String) : String :=
  if (old ++ "_").toList <+: name.toList then
    new ++ "_" ++ String.ofList (name.toList.drop (old ++ "_").toList.length)
  else name

private theorem rename_append (old new rest : String) :
    rename old new (old ++ "_" ++ rest) = new ++ "_" ++ rest := by
  simp [rename]

private theorem topic_eq (publisher name : String) :
    topic publisher name = publisher ++ "_" ++ ("topic_" ++ sanitizeSchema name) := by
  have hstem : "_topic_" = "_" ++ "topic_" := by decide
  rw [topic, hstem]
  simp only [String.append_assoc]

private theorem instructions_eq (publisher agent : String) :
    instructions publisher agent =
      publisher ++ "_" ++ (sanitizeSchema agent ++ "_gpt_default") :=
  String.append_assoc

@[simp] theorem rename_bot (old new agent : String) :
    rename old new (bot old agent) = bot new agent :=
  rename_append old new _

@[simp] theorem rename_topic (old new name : String) :
    rename old new (topic old name) = topic new name := by
  rw [topic_eq, rename_append, topic_eq]

@[simp] theorem rename_instructions (old new agent : String) :
    rename old new (instructions old agent) = instructions new agent := by
  rw [instructions_eq, rename_append, instructions_eq]

theorem ofPublisher_bot (publisher agent : String) : OfPublisher publisher (bot publisher agent) :=
  ⟨_, rfl⟩

theorem ofPublisher_topic (publisher name : String) :
    OfPublisher publisher (topic publisher name) :=
  ⟨_, topic_eq publisher name⟩

theorem ofPublisher_instructions (publisher agent : String) :
    OfPublisher publisher (instructions publisher agent) :=
  ⟨_, instructions_eq publisher agent⟩

/-- Names of one publisher that become the same are the same. -/
theorem rename_inj {old new name name' : String} (h : OfPublisher old name)
    (h' : OfPublisher old name') (heq : rename old new name = rename old new name') :
    name = name' := by
  obtain ⟨rest, rfl⟩ := h
  obtain ⟨rest', rfl⟩ := h'
  rw [rename_append, rename_append] at heq
  have htext := congrArg String.toList heq
  simp only [String.toList_append, List.append_right_inj] at htext
  rw [String.toList_injective htext]

private theorem rename_mem_map {old new name : String} {names : List String}
    (h : OfPublisher old name) (hnames : ∀ n ∈ names, OfPublisher old n) :
    rename old new name ∈ names.map (rename old new) ↔ name ∈ names := by
  constructor
  · intro hm
    obtain ⟨n, hn, heq⟩ := List.mem_map.mp hm
    exact rename_inj (hnames n hn) h heq ▸ hn
  · exact List.mem_map_of_mem

end Naming

namespace Node

mutual

def targets : Node → List String
  | beginDialog _ dialog => [dialog]
  | conditionGroup _ items otherwise => targetsOfItems items ++ targetsOfList otherwise
  | _ => []

def targetsOfItems : List (ConditionItem Node) → List String
  | [] => []
  | ⟨_, _, actions⟩ :: rest => targetsOfList actions ++ targetsOfItems rest

def targetsOfList : List Node → List String
  | [] => []
  | n :: rest => targets n ++ targetsOfList rest

end

mutual

/-- A node with the dialogs that it and the nodes below it begin renamed. -/
def rename (f : String → String) : Node → Node
  | beginDialog id dialog => beginDialog id (f dialog)
  | conditionGroup id items otherwise =>
      conditionGroup id (renameItems f items) (renameList f otherwise)
  | n => n

def renameItems (f : String → String) : List (ConditionItem Node) → List (ConditionItem Node)
  | [] => []
  | ⟨id, condition, actions⟩ :: rest => ⟨id, condition, renameList f actions⟩ :: renameItems f rest

def renameList (f : String → String) : List Node → List Node
  | [] => []
  | n :: rest => rename f n :: renameList f rest

end

@[simp] theorem kind_rename (f : String → String) (n : Node) : (n.rename f).kind = n.kind := by
  cases n <;> rfl

@[simp] theorem isEnding_rename (f : String → String) (n : Node) :
    (n.rename f).isEnding = n.isEnding := by
  cases n <;> rfl

end Node

def Dialog.rename (f : String → String) (d : Dialog) : Dialog :=
  { d with
    schemaName := f d.schemaName
    trigger := { d.trigger with actions := Node.renameList f d.trigger.actions } }

namespace Component

def rename (f : String → String) : Component → Component
  | dialog d => dialog (d.rename f)
  | instructions i => instructions { i with schemaName := f i.schemaName }

def names : Component → List String
  | dialog d => d.schemaName :: Node.targetsOfList d.trigger.actions
  | instructions i => [i.schemaName]

@[simp] theorem schemaName_rename (f : String → String) (c : Component) :
    (c.rename f).schemaName = f c.schemaName := by
  cases c <;> rfl

end Component

namespace BotDocument

/-- A document with the names of its entity and its components renamed, and the dialogs that its
nodes begin. -/
def rename (f : String → String) (d : BotDocument) : BotDocument :=
  { d with
    entity := { d.entity with schemaName := f d.entity.schemaName }
    components := d.components.map (Component.rename f) }

def names (d : BotDocument) : List String :=
  d.entity.schemaName :: d.components.flatMap Component.names

@[simp] theorem schemaNames_rename (f : String → String) (d : BotDocument) :
    (d.rename f).schemaNames = d.schemaNames.map f := by
  rw [schemaNames, rename, List.map_map, schemaNames, List.map_map]
  exact List.map_congr_left fun c _ => c.schemaName_rename f

@[simp] theorem dialogs_rename (f : String → String) (d : BotDocument) :
    (d.rename f).dialogs = d.dialogs.map (Dialog.rename f) := by
  rw [dialogs, rename, dialogs, List.filterMap_map, List.map_filterMap]
  apply List.filterMap_congr
  intro c _
  cases c <;> rfl

end BotDocument

/-! ## The check of a renamed document -/

def Finding.rename (f : String → String) : Finding → Finding
  | unresolvedTopic schemaName => unresolvedTopic (f schemaName)
  | finding => finding

/-- A finding at its place, with the name it quotes renamed. -/
def PlacedFinding.rename (f : String → String) (x : PlacedFinding) : PlacedFinding :=
  (x.1, x.2.rename f)

namespace Node

variable (f : String → String) {known known' : List String}

@[simp] theorem reachability_rename (path : String) (ended : Option Nat) (n : Node) :
    reachability path ended (n.rename f) =
      (reachability path ended n).map (PlacedFinding.rename f) := by
  cases ended with
  | none => rfl
  | some ending =>
    rw [reachability, kind_rename]
    rfl

mutual

/-- A renamed node refers to a known dialog exactly when the node does, if renaming keeps what is
known of the dialogs that it begins. -/
theorem check_rename (path : String) : ∀ n : Node,
    (∀ t ∈ n.targets, f t ∈ known' ↔ t ∈ known) →
      check known' path (n.rename f) = (check known path n).map (PlacedFinding.rename f)
  | beginDialog _ dialog, h => by
      have hdialog := h dialog List.mem_cons_self
      by_cases hk : dialog ∈ known
      · rw [rename, check, check, if_pos hk, if_pos (hdialog.mpr hk)]
        rfl
      · rw [rename, check, check, if_neg hk, if_neg (mt hdialog.mp hk)]
        rfl
  | conditionGroup _ items otherwise, h => by
      obtain ⟨hitems, hotherwise⟩ := List.forall_mem_append.mp h
      rw [rename, check, check, List.map_append, checkItems_rename path 0 items hitems,
        checkList_rename (elsePath path) 0 none otherwise hotherwise]
  | sendActivity .., _ => rfl
  | question .., _ => rfl
  | setVariable .., _ => rfl
  | invokeConnector .., _ => rfl
  | invokeFlow .., _ => rfl
  | searchAndSummarize .., _ => rfl
  | endConversation _, _ => rfl
  | cancelAllDialogs _, _ => rfl

private theorem checkItems_rename (path : String) :
    ∀ (index : Nat) (items : List (ConditionItem Node)),
    (∀ t ∈ targetsOfItems items, f t ∈ known' ↔ t ∈ known) →
      checkItems known' path index (renameItems f items) =
        (checkItems known path index items).map (PlacedFinding.rename f)
  | _, [], _ => rfl
  | index, ⟨_, _, actions⟩ :: rest, h => by
      obtain ⟨hactions, hrest⟩ := List.forall_mem_append.mp h
      rw [renameItems, checkItems, checkItems, List.map_append,
        checkList_rename (branchPath path index) 0 none actions hactions,
        checkItems_rename path (index + 1) rest hrest]

private theorem checkList_rename (path : String) :
    ∀ (index : Nat) (ended : Option Nat) (ns : List Node),
    (∀ t ∈ targetsOfList ns, f t ∈ known' ↔ t ∈ known) →
      checkList known' path index ended (renameList f ns) =
        (checkList known path index ended ns).map (PlacedFinding.rename f)
  | _, _, [], _ => rfl
  | index, ended, n :: rest, h => by
      obtain ⟨hn, hrest⟩ := List.forall_mem_append.mp h
      simp [renameList, checkList, check_rename (elementPath path index) n hn,
        checkList_rename path (index + 1) _ rest hrest]

end
end Node

namespace BotDocument

private theorem schemaName_mem_names {d : BotDocument} {c : Component} (hc : c ∈ d.components) :
    c.schemaName ∈ d.names := by
  refine List.mem_cons_of_mem _ (List.mem_flatMap.mpr ⟨c, hc, ?_⟩)
  cases c <;> exact List.mem_cons_self

private theorem target_mem_names {d : BotDocument} {dialog : Dialog} (hd : dialog ∈ d.dialogs)
    {t : String} (ht : t ∈ Node.targetsOfList dialog.trigger.actions) : t ∈ d.names := by
  obtain ⟨c, hc, hdialog⟩ := List.mem_filterMap.mp hd
  refine List.mem_cons_of_mem _ (List.mem_flatMap.mpr ⟨c, hc, ?_⟩)
  cases c with
  | dialog d' =>
    cases hdialog
    exact List.mem_cons_of_mem _ ht
  | instructions i => cases hdialog

/-- Where all names are the publisher's, the check finds the same under another publisher. -/
theorem check_rename {old new : String} {d : BotDocument}
    (h : ∀ name ∈ d.names, Naming.OfPublisher old name) :
    (d.rename (Naming.rename old new)).check =
      d.check.map (PlacedFinding.rename (Naming.rename old new)) := by
  have hknown : ∀ name ∈ d.schemaNames, Naming.OfPublisher old name := by
    intro name hname
    obtain ⟨c, hc, rfl⟩ := List.mem_map.mp hname
    exact h _ (schemaName_mem_names hc)
  rw [check, dialogs_rename, schemaNames_rename, check, List.flatMap_map, List.map_flatMap]
  apply List.flatMap_congr
  intro dialog hd
  apply Node.checkList_rename
  intro t ht
  exact Naming.rename_mem_map (h t (target_mem_names hd ht)) hknown

end BotDocument
end Botwright
