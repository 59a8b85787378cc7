import Botwright.Json.Basic
import Botwright.Uuid
/-!
# Bot templates

The document that a runtime imports: the entity of the bot and its components, which are dialogs
and the instructions of the generative orchestrator.
-/
namespace Botwright

structure ConditionItem (α : Type) where
  id : String
  condition : String
  actions : List α
deriving Inhabited

inductive Activity where
  | text (text : String)
  | lines (lines : List String)
deriving DecidableEq, Inhabited

def Activity.firstLine : Activity → String
  | text s => s
  | lines ls => ls.headD ""

inductive EntityKind where
  | boolean | number | dateTime | email | phoneNumber | string | closedList
deriving DecidableEq, Inhabited

namespace EntityKind

def all : List EntityKind := [boolean, number, dateTime, email, phoneNumber, string, closedList]

def name : EntityKind → String
  | boolean => "BooleanPrebuiltEntity"
  | number => "NumberPrebuiltEntity"
  | dateTime => "DateTimePrebuiltEntity"
  | email => "EmailPrebuiltEntity"
  | phoneNumber => "PhoneNumberPrebuiltEntity"
  | string => "StringPrebuiltEntity"
  | closedList => "ClosedListEntity"

end EntityKind

/-- A node of a dialog. -/
inductive Node where
  | sendActivity (id : String) (outcome : Option String) (activity : Activity)
  | question (id answer prompt : String) (entity : EntityKind)
  | conditionGroup (id : String) (items : List (ConditionItem Node)) (otherwise : List Node)
  | setVariable (id name : String) (value : Json)
  | beginDialog (id dialog : String)
  | invokeConnector (id connection operation : String) (inputs : Json.Fields)
  | invokeFlow (id flow : String) (inputs : Json.Fields)
  | searchAndSummarize (id input answer : String)
  | endConversation (id : String)
  | cancelAllDialogs (id : String)
deriving Inhabited

namespace Node

def id : Node → String
  | sendActivity id .. => id
  | question id .. => id
  | conditionGroup id .. => id
  | setVariable id .. => id
  | beginDialog id .. => id
  | invokeConnector id .. => id
  | invokeFlow id .. => id
  | searchAndSummarize id .. => id
  | endConversation id => id
  | cancelAllDialogs id => id

def kind : Node → String
  | sendActivity .. => "SendActivity"
  | question .. => "Question"
  | conditionGroup .. => "ConditionGroup"
  | setVariable .. => "SetVariable"
  | beginDialog .. => "BeginDialog"
  | invokeConnector .. => "InvokeConnectorAction"
  | invokeFlow .. => "InvokeFlowAction"
  | searchAndSummarize .. => "SearchAndSummarizeContent"
  | endConversation _ => "EndConversation"
  | cancelAllDialogs _ => "CancelAllDialogs"

def kinds : List String :=
  ["SendActivity", "Question", "ConditionGroup", "SetVariable", "BeginDialog",
    "InvokeConnectorAction", "InvokeFlowAction", "SearchAndSummarizeContent", "EndConversation",
    "CancelAllDialogs"]

mutual

/-- The ids of a node and all nodes and condition items below it, depth first. -/
def ids : Node → List String
  | conditionGroup id items otherwise => id :: idsOfItems items ++ idsOfList otherwise
  | node => [node.id]

def idsOfItems : List (ConditionItem Node) → List String
  | [] => []
  | ⟨id, _, actions⟩ :: rest => id :: idsOfList actions ++ idsOfItems rest

def idsOfList : List Node → List String
  | [] => []
  | n :: rest => ids n ++ idsOfList rest

end

end Node

inductive TriggerKind where
  | onConversationStart | onRecognizedIntent | onUnknownIntent | onEscalate | onError
deriving DecidableEq, Inhabited

namespace TriggerKind

def all : List TriggerKind :=
  [onConversationStart, onRecognizedIntent, onUnknownIntent, onEscalate, onError]

def name : TriggerKind → String
  | onConversationStart => "OnConversationStart"
  | onRecognizedIntent => "OnRecognizedIntent"
  | onUnknownIntent => "OnUnknownIntent"
  | onEscalate => "OnEscalate"
  | onError => "OnError"

end TriggerKind

inductive StartBehavior where
  | cancelOthers | latestContentAndCancelOthers
deriving DecidableEq, Inhabited

namespace StartBehavior

def all : List StartBehavior := [cancelOthers, latestContentAndCancelOthers]

def name : StartBehavior → String
  | cancelOthers => "CancelOtherTopics"
  | latestContentAndCancelOthers => "UseLatestPublishedContentAndCancelOtherTopics"

end StartBehavior

structure Intent where
  displayName : String
  onSelect : Bool
  queries : List String
deriving DecidableEq, Inhabited

structure Trigger where
  kind : TriggerKind
  id : String
  intent : Option Intent
  actions : List Node
deriving Inhabited

/-- A conversation of the bot. -/
structure Dialog where
  customizable : Bool
  displayName : String
  parentBotId : Uuid
  description : String
  shareContext : Json.Fields
  state : String
  status : String
  schemaName : String
  startBehavior : Option StartBehavior
  trigger : Trigger
deriving Inhabited

/-- The instructions of the generative orchestrator, carried as text. -/
structure Instructions where
  customizable : Bool
  displayName : String
  parentBotId : Uuid
  shareContext : Json.Fields
  state : String
  status : String
  componentType : UInt32
  schemaName : String
  data : String
deriving Inhabited

inductive Component where
  | dialog (dialog : Dialog)
  | instructions (instructions : Instructions)
deriving Inhabited

namespace Component

def schemaName : Component → String
  | dialog d => d.schemaName
  | instructions i => i.schemaName

def displayName : Component → String
  | dialog d => d.displayName
  | instructions i => i.displayName

def parentBotId : Component → Uuid
  | dialog d => d.parentBotId
  | instructions i => i.parentBotId

def dialog? : Component → Option Dialog
  | dialog d => some d
  | instructions _ => none

def ids : Component → List String
  | dialog d => Node.idsOfList d.trigger.actions
  | instructions _ => []

end Component

/-- Identity, authentication, locale and flags of the bot. -/
structure BotEntity where
  customizable : Bool
  displayName : String
  schemaName : String
  componentId : Uuid
  botId : Uuid
  accessControlPolicy : String
  authenticationMode : String
  authenticationTrigger : String
  generativeActions : Bool
  languageModel : Bool
  contentVersion : UInt32
  provisioningStatus : String
  synchronizationState : String
  template : String
  /-- The locale number, 1033 for `en-US`. -/
  language : UInt32
  runtimeProvider : String
  state : String
  status : UInt32
deriving DecidableEq, Inhabited

structure BotDocument where
  kind : String
  environmentId : String
  entity : BotEntity
  components : List Component
deriving Inhabited

namespace BotDocument

def definitionKind : String := "BotDefinition"

def dialogs (d : BotDocument) : List Dialog := d.components.filterMap Component.dialog?

def component? (d : BotDocument) (schemaName : String) : Option Component :=
  d.components.find? (·.schemaName == schemaName)

def schemaNames (d : BotDocument) : List String := d.components.map Component.schemaName

/-- The ids of all nodes and condition items, component by component and depth first. -/
def ids (d : BotDocument) : List String := d.components.flatMap Component.ids

end BotDocument
end Botwright
