import Botwright.Compile.Actions
/-!
# Compiling topics

A topic of the author becomes a dialog that starts on its phrases. The name of a topic has to leave
something for its schema name.
-/
namespace Botwright

def triggerId : String := "main"

def activeState : String := "Active"

def topicPath (name : String) : String := "topic '" ++ name ++ "' > actions"

def Dialog.ofTrigger (botId : Uuid) (displayName description schemaName : String)
    (start : Option StartBehavior) (trigger : Trigger) : Dialog where
  customizable := false
  displayName := displayName
  parentBotId := botId
  description := description
  shareContext := []
  state := activeState
  status := activeState
  schemaName := schemaName
  startBehavior := start
  trigger := trigger

/-- Recognition by phrases, left out of selection prompts. -/
def Intent.ofPhrases (displayName : String) (phrases : List String) : Intent :=
  ⟨displayName, false, phrases⟩

def Trigger.onEvent (kind : TriggerKind) (actions : List Node) : Trigger :=
  ⟨kind, triggerId, none, actions⟩

def Trigger.onPhrases (kind : TriggerKind) (displayName : String) (phrases : List String)
    (actions : List Node) : Trigger :=
  ⟨kind, triggerId, some (.ofPhrases displayName phrases), actions⟩

namespace Topic

def hasUsableName (t : Topic) : Bool := !(Naming.sanitizeSchema t.name).isEmpty

/-- The failure of the topic at position `index`, if its name is not usable. -/
def checkName (index : Nat) (t : Topic) : Except Failure Unit :=
  if t.hasUsableName then .ok ()
  else .error (.invalidName ("topics[" ++ toString index ++ "].name") t.name)

def record (publisher : String) (t : Topic) : Recording Unit := do
  Action.recordList (topicPath t.name) 0 t.actionList
  Recording.progress (.compiledTopic t.name (Naming.topic publisher t.name) t.phrases.length
    t.actionList.length)

def dialog {σ : Type} [IdSource σ] (publisher : String) (botId : Uuid) (t : Topic) :
    StateM σ Dialog := do
  let actions ← Action.nodes publisher t.actionList
  return .ofTrigger botId t.name (t.description.getD "") (Naming.topic publisher t.name) none
    (.onPhrases .onRecognizedIntent t.name t.phrases actions)

end Topic
end Botwright
