import Botwright.Template.Basic
/-!
# Writing templates

Fields in the order of the runtime's records, the kind of a tagged value first; an absent start
behavior, intent or outcome is left out.
-/
namespace Botwright

open Json (presentFields)

def Activity.toJson : Activity → Json
  | text s => .string s
  | lines ls => .object [("text", Json.texts ls)]

namespace Node

mutual

def toJson : Node → Json
  | sendActivity id outcome activity =>
      .object (presentFields [("kind", some (.string "SendActivity")), ("id", some (.string id)),
        ("conversationOutcome", outcome.map .string), ("activity", some activity.toJson)])
  | question id answer prompt entity =>
      .object [("kind", .string "Question"), ("id", .string id), ("variable", .string answer),
        ("prompt", .string prompt), ("entity", .string entity.name)]
  | conditionGroup id items otherwise =>
      .object [("kind", .string "ConditionGroup"), ("id", .string id),
        ("conditions", .array (itemsToJson items)), ("elseActions", .array (listToJson otherwise))]
  | setVariable id name value =>
      .object [("kind", .string "SetVariable"), ("id", .string id), ("variable", .string name),
        ("value", value)]
  | beginDialog id dialog =>
      .object [("kind", .string "BeginDialog"), ("id", .string id), ("dialog", .string dialog)]
  | invokeConnector id connection operation inputs =>
      .object [("kind", .string "InvokeConnectorAction"), ("id", .string id),
        ("connectionReference", .string connection), ("operationId", .string operation),
        ("inputs", .object inputs)]
  | invokeFlow id flow inputs =>
      .object [("kind", .string "InvokeFlowAction"), ("id", .string id), ("flowId", .string flow),
        ("inputs", .object inputs)]
  | searchAndSummarize id input answer =>
      .object [("kind", .string "SearchAndSummarizeContent"), ("id", .string id),
        ("userInput", .string input), ("variable", .string answer)]
  | endConversation id => .object [("kind", .string "EndConversation"), ("id", .string id)]
  | cancelAllDialogs id => .object [("kind", .string "CancelAllDialogs"), ("id", .string id)]

def itemsToJson : List (ConditionItem Node) → List Json
  | [] => []
  | ⟨id, condition, actions⟩ :: rest =>
      .object [("id", .string id), ("condition", .string condition),
        ("actions", .array (listToJson actions))] :: itemsToJson rest

def listToJson : List Node → List Json
  | [] => []
  | n :: rest => toJson n :: listToJson rest

end

end Node

def Intent.toJson (i : Intent) : Json :=
  .object [("displayName", .string i.displayName), ("includeInOnSelectIntent", .bool i.onSelect),
    ("triggerQueries", Json.texts i.queries)]

def Trigger.toJson (t : Trigger) : Json :=
  .object (presentFields [("kind", some (.string t.kind.name)), ("id", some (.string t.id)),
    ("intent", t.intent.map Intent.toJson), ("actions", some (.array (Node.listToJson t.actions)))])

def customizableToJson (customizable : Bool) : Json :=
  .object [("isCustomizable", .bool customizable)]

def Dialog.toJson (d : Dialog) : Json :=
  .object [("kind", .string "DialogComponent"),
    ("managedProperties", customizableToJson d.customizable),
    ("displayName", .string d.displayName), ("parentBotId", .string d.parentBotId.text),
    ("description", .string d.description), ("shareContext", .object d.shareContext),
    ("state", .string d.state), ("status", .string d.status), ("schemaName", .string d.schemaName),
    ("dialog", .object (presentFields [
      ("startBehavior", d.startBehavior.map fun b => .string b.name),
      ("beginDialog", some d.trigger.toJson)]))]

def Instructions.toJson (i : Instructions) : Json :=
  .object [("kind", .string "LegacyOrUnknownComponent"),
    ("managedProperties", customizableToJson i.customizable),
    ("displayName", .string i.displayName), ("parentBotId", .string i.parentBotId.text),
    ("shareContext", .object i.shareContext), ("state", .string i.state),
    ("status", .string i.status), ("componentTypeInt", Json.nat i.componentType.toNat),
    ("schemaName", .string i.schemaName), ("data", .string i.data)]

def Component.toJson : Component → Json
  | dialog d => d.toJson
  | instructions i => i.toJson

def BotEntity.toJson (e : BotEntity) : Json :=
  .object [("managedProperties", customizableToJson e.customizable),
    ("displayName", .string e.displayName), ("schemaName", .string e.schemaName),
    ("componentIdUnique", .string e.componentId.text), ("cdsBotId", .string e.botId.text),
    ("accessControlPolicy", .string e.accessControlPolicy),
    ("authenticationMode", .string e.authenticationMode),
    ("authenticationTrigger", .string e.authenticationTrigger),
    ("configuration", .object [
      ("settings", .object [("GenerativeActionsEnabled", .bool e.generativeActions)]),
      ("botSpeechSettings", .object [("isDomainLanguageModelEnabled", .bool e.languageModel)])]),
    ("synchronizationStatus", .object [("contentVersion", Json.nat e.contentVersion.toNat),
      ("currentSynchronizationState", .object [
        ("provisioningStatus", .string e.provisioningStatus),
        ("state", .string e.synchronizationState)])]),
    ("template", .string e.template), ("language", Json.nat e.language.toNat),
    ("runtimeProvider", .string e.runtimeProvider), ("state", .string e.state),
    ("status", Json.nat e.status.toNat)]

def BotDocument.toJson (d : BotDocument) : Json :=
  .object [("kind", .string d.kind), ("environmentId", .string d.environmentId),
    ("entity", d.entity.toJson), ("components", .array (d.components.map Component.toJson))]

end Botwright
