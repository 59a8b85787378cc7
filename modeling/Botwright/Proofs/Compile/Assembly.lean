import Botwright.Compile.Document
import Botwright.Proofs.Compile.Marks
import Mathlib.Algebra.Ring.Nat

/-!
# The document of a named agent

The dialogs of a document are the seven system topics and then the topics of the author, each under
the schema name of the name it shows. Assembling draws two unique identifiers and then one token
for every mark of the document.
-/

namespace Botwright

open IdSource

namespace SystemTopics

/-- The names that the system topics show, in order. -/
def titles : List String :=
  ["Conversation Start", "Greeting", "Fallback", "Escalate", "Goodbye", "Thank you", "On Error"]

def idCount : Nat := 13

@[simp] theorem map_sanitizeSchema_titles : titles.map Naming.sanitizeSchema = stems := by decide

end SystemTopics

def Topic.idCount (t : Topic) : Nat := Action.idCountOfList t.actionList

def Dialog.marks (d : Dialog) : List Mark := Node.marksOfList d.trigger.actions

namespace Component

def key (c : Component) : String × String := (c.schemaName, c.displayName)

def marks : Component → List Mark
  | dialog d => d.marks
  | instructions _ => []

@[simp] theorem map_id_marks (c : Component) : c.marks.map Mark.id = c.ids := by
  cases c with
  | dialog d => exact Node.map_id_marksOfList d.trigger.actions
  | instructions i => rfl

end Component

namespace BotDocument

def marks (d : BotDocument) : List Mark := d.components.flatMap Component.marks

@[simp] theorem map_id_marks (d : BotDocument) : d.marks.map Mark.id = d.ids := by
  rw [marks, ids, List.map_flatMap]
  congr 1
  funext c
  exact c.map_id_marks

end BotDocument

/-- A dialog of the bot whose schema name is made of the name it shows. -/
def Dialog.BelongsTo (publisher : String) (botId : Uuid) (d : Dialog) : Prop :=
  d.schemaName = Naming.topic publisher d.displayName ∧ d.parentBotId = botId

def titleKey (publisher title : String) : String × String := (Naming.topic publisher title, title)

namespace SystemTopics

variable {σ : Type} [IdSource σ] (publisher name : String) (botId : Uuid) (agent : Agent) (s : σ)

@[simp] theorem map_topic_titles :
    titles.map (Naming.topic publisher) = stems.map (Naming.topic publisher) := by
  have h : titles.map Naming.sanitizeSchema = stems.map Naming.sanitizeSchema := by decide
  have hf : Naming.topic publisher = (publisher ++ "_topic_" ++ ·) ∘ Naming.sanitizeSchema := rfl
  rw [hf, ← List.map_map, ← List.map_map, h]

@[simp] theorem all_displayName :
    (all publisher botId name agent s).1.map Dialog.displayName = titles := rfl

private theorem all_belong :
    ∀ d ∈ (all publisher botId name agent s).1, d.BelongsTo publisher botId := by
  have hname : (all publisher botId name agent s).1.map Dialog.schemaName =
      (all publisher botId name agent s).1.map fun d => Naming.topic publisher d.displayName :=
    (map_topic_titles publisher).symm
  have hparent : (all publisher botId name agent s).1.map Dialog.parentBotId =
      (all publisher botId name agent s).1.map fun _ => botId := rfl
  intro d hd
  exact ⟨List.map_inj_left.mp hname d hd, List.map_inj_left.mp hparent d hd⟩

private theorem conversationStart_allotted :
    Allotted (conversationStart publisher botId name agent s).1.marks s
      (conversationStart publisher botId name agent s).2 :=
  .single (some "sendMessage") s

private theorem greeting_allotted :
    Allotted (greeting publisher botId agent s).1.marks s (greeting publisher botId agent s).2 :=
  (Allotted.single (some "sendMessage") s).append (.single (some "cancelAllDialogs") _)

private theorem fallback_allotted :
    Allotted (fallback publisher botId agent s).1.marks s (fallback publisher botId agent s).2 :=
  (Allotted.single (some "conditionGroup") s).append <|
    (Allotted.single Node.itemStem _).append <|
      (Allotted.single (some "sendMessage") _).append (.single none _)

private theorem escalate_allotted :
    Allotted (escalate publisher botId agent s).1.marks s (escalate publisher botId agent s).2 :=
  .single (some "sendMessage") s

private theorem goodbye_allotted :
    Allotted (goodbye publisher botId s).1.marks s (goodbye publisher botId s).2 :=
  (Allotted.single (some "sendMessage") s).append (.single (some "endConversation") _)

private theorem thankYou_allotted :
    Allotted (thankYou publisher botId s).1.marks s (thankYou publisher botId s).2 :=
  .single (some "sendMessage") s

private theorem onError_allotted :
    Allotted (onError publisher botId s).1.marks s (onError publisher botId s).2 :=
  (Allotted.single (some "sendMessage") s).append (.single (some "cancelAllDialogs") _)

private theorem all_allotted :
    Allotted ((all publisher botId name agent s).1.flatMap Dialog.marks) s
      (all publisher botId name agent s).2 :=
  (conversationStart_allotted publisher name botId agent s).append <|
    (greeting_allotted publisher botId agent _).append <|
    (fallback_allotted publisher botId agent _).append <|
    (escalate_allotted publisher botId agent _).append <|
    (goodbye_allotted publisher botId _).append <|
    (thankYou_allotted publisher botId _).append <|
    (onError_allotted publisher botId _).append (.nil _)

@[simp] theorem length_marks_all :
    ((all publisher botId name agent s).1.flatMap Dialog.marks).length = idCount := rfl

end SystemTopics

namespace Agent

variable {σ : Type} [IdSource σ]

@[simp] theorem dialogs_displayName (publisher : String) (botId : Uuid) (topics : List Topic)
    (s : σ) :
    (dialogs publisher botId topics s).1.map Dialog.displayName = topics.map Topic.name := by
  induction topics generalizing s with
  | nil => rfl
  | cons t topics ih => exact congrArg (List.cons t.name) (ih _)

private theorem dialogs_belong (publisher : String) (botId : Uuid) (topics : List Topic) (s : σ) :
    ∀ d ∈ (dialogs publisher botId topics s).1, d.BelongsTo publisher botId := by
  induction topics generalizing s with
  | nil => exact fun d hd => absurd hd List.not_mem_nil
  | cons t topics ih =>
    intro d hd
    rcases List.mem_cons.mp hd with rfl | hd
    · exact ⟨rfl, rfl⟩
    · exact ih _ d hd

private theorem dialogs_allotted (publisher : String) (botId : Uuid) (topics : List Topic) (s : σ) :
    Allotted ((dialogs publisher botId topics s).1.flatMap Dialog.marks) s
      (dialogs publisher botId topics s).2 := by
  induction topics generalizing s with
  | nil => exact .nil s
  | cons t topics ih =>
    have hnodes := Action.nodes_allotted publisher t.actionList s
    exact hnodes.append (ih _)

@[simp] theorem length_marks_dialogs (publisher : String) (botId : Uuid) (topics : List Topic)
    (s : σ) :
    ((dialogs publisher botId topics s).1.flatMap Dialog.marks).length =
      (topics.map Topic.idCount).sum := by
  induction topics generalizing s with
  | nil => rfl
  | cons t topics ih =>
    have hnodes := Action.length_marks_nodes publisher t.actionList s
    change (Node.marksOfList _ ++ List.flatMap _ _).length = _
    rw [List.length_append, List.map_cons, List.sum_cons, Topic.idCount, ← hnodes]
    exact congrArg _ (ih _)

/-! ## The document as a whole -/

def dialogTitles (topics : List Topic) : List String := SystemTopics.titles ++ topics.map Topic.name

def instructionsKeys (options : Options) (agent : Agent) (name : String) :
    List (String × String) :=
  (agent.instructions.map fun _ => (Naming.instructions options.publisher name, name)).toList

variable (options : Options) (agent : Agent) (name : String) (topics : List Topic) (s : σ)

def assembledDialogs : List Dialog × σ :=
  let system := SystemTopics.all options.publisher (uuid s).1 name agent (uuid (uuid s).2).2
  let user := dialogs options.publisher (uuid s).1 topics system.2
  (system.1 ++ user.1, user.2)

def assembledInstructions : List Component :=
  (agent.instructions.map (Component.instructions ∘
    instructionsComponent options.publisher name (uuid s).1)).toList

theorem assemble_eq :
    agent.assemble options name topics s =
      (⟨BotDocument.definitionKind, options.environmentId,
          agent.entity options.publisher name (uuid s).1 (uuid (uuid s).2).1,
          assembledInstructions options agent name s ++
            (assembledDialogs options agent name topics s).1.map .dialog⟩,
        (assembledDialogs options agent name topics s).2) := rfl

@[simp] theorem assembledDialogs_displayName :
    (assembledDialogs options agent name topics s).1.map Dialog.displayName =
      dialogTitles topics := by
  rw [assembledDialogs, List.map_append, SystemTopics.all_displayName, dialogs_displayName]
  rfl

theorem assembledDialogs_belong :
    ∀ d ∈ (assembledDialogs options agent name topics s).1,
      d.BelongsTo options.publisher (uuid s).1 := by
  intro d hd
  rcases List.mem_append.mp hd with hd | hd
  · exact SystemTopics.all_belong _ _ _ _ _ d hd
  · exact dialogs_belong _ _ _ _ d hd

@[simp] theorem assembledInstructions_key :
    (assembledInstructions options agent name s).map Component.key =
      instructionsKeys options agent name := by
  unfold assembledInstructions instructionsKeys
  cases agent.instructions <;> rfl

/-- Every component is told by its key: the instructions first, then the dialogs by title. -/
@[simp] theorem assemble_keys :
    (agent.assemble options name topics s).1.components.map Component.key =
      instructionsKeys options agent name ++
        (dialogTitles topics).map (titleKey options.publisher) := by
  have hdialogs : (assembledDialogs options agent name topics s).1.map
      (Component.key ∘ Component.dialog) =
        (dialogTitles topics).map (titleKey options.publisher) := by
    rw [← assembledDialogs_displayName options agent name topics s, List.map_map]
    apply List.map_congr_left
    intro d hd
    exact congrArg (·, d.displayName) (assembledDialogs_belong options agent name topics s d hd).1
  simp [assemble_eq, hdialogs]

theorem parentBotId_of_mem_assemble (c : Component)
    (hc : c ∈ (agent.assemble options name topics s).1.components) :
    c.parentBotId = (uuid s).1 := by
  rw [assemble_eq] at hc
  rcases List.mem_append.mp hc with hc | hc
  · obtain ⟨text, _, rfl⟩ := Option.map_eq_some_iff.mp (Option.mem_toList.mp hc)
    rfl
  · obtain ⟨d, hd, rfl⟩ := List.mem_map.mp hc
    exact (assembledDialogs_belong options agent name topics s d hd).2

@[simp] theorem assemble_dialogs :
    (agent.assemble options name topics s).1.dialogs =
      (assembledDialogs options agent name topics s).1 := by
  have hnone : (assembledInstructions options agent name s).filterMap Component.dialog? = [] := by
    unfold assembledInstructions
    cases agent.instructions <;> rfl
  rw [assemble_eq, BotDocument.dialogs, List.filterMap_append, hnone, List.nil_append,
    List.filterMap_map]
  exact List.filterMap_some

/-- The instructions carry no ids, so the marks of a document are those of its dialogs. -/
@[simp] theorem assemble_marks :
    (agent.assemble options name topics s).1.marks =
      (assembledDialogs options agent name topics s).1.flatMap Dialog.marks := by
  have hnone : (assembledInstructions options agent name s).flatMap Component.marks = [] := by
    unfold assembledInstructions
    cases agent.instructions <;> rfl
  rw [assemble_eq, BotDocument.marks, List.flatMap_append, hnone, List.nil_append,
    List.flatMap_map]
  rfl

theorem assemble_allotted :
    Allotted (agent.assemble options name topics s).1.marks (uuid (uuid s).2).2
      (agent.assemble options name topics s).2 := by
  rw [assemble_marks, assembledDialogs, List.flatMap_append]
  exact (SystemTopics.all_allotted _ _ _ _ _).append (dialogs_allotted _ _ _ _)

@[simp] theorem length_marks_assemble :
    (agent.assemble options name topics s).1.marks.length =
      SystemTopics.idCount + (topics.map Topic.idCount).sum := by
  rw [assemble_marks, assembledDialogs, List.flatMap_append, List.length_append,
    SystemTopics.length_marks_all, length_marks_dialogs]

/-- The draws of a document with the given topics. -/
def assemblyDraws (topics : List Topic) : List Draw :=
  .uuid :: .uuid ::
    List.replicate (SystemTopics.idCount + (topics.map Topic.idCount).sum) .token

@[simp] theorem assemble_source :
    (agent.assemble options name topics s).2 = after (assemblyDraws topics) s := by
  rw [(assemble_allotted options agent name topics s).source_eq, length_marks_assemble]
  rfl

end Agent
end Botwright
