import Botwright.Decode.Record
import Botwright.Template.Basic
/-!
# Reading templates

Records take objects or arrays; nodes and components are told apart by their `kind`. Everything
inside a component counts surplus array elements.
-/
namespace Botwright

open Decode

/-- A message payload is a text or a record with a list of lines; no other cause is told. -/
def Activity.ofJson : Json → Decoded Activity
  | .string s => .ok (.text s)
  | v =>
      let lines := field v "text" 0 texts
      match checkRecord .tagged "Activity" [slot "text" .required lines] v, lines with
      | .ok (), .ok (some lines) => .ok (.lines lines)
      | _, _ => .error (.noShape "Activity")

namespace Node

def ofKind (kind : String) (v : Json) (items : Decoded (Option (List (ConditionItem Node))))
    (otherwise : Decoded (Option (List Node))) : Decoded Node :=
  let id := field v "id" 0 text
  let check := fun slots =>
    checkRecord .tagged ("variant ActionNode::" ++ kind) (slot "id" .required id :: slots) v
  if kind = "SendActivity" then do
    let outcome := field v "conversationOutcome" 1 (nullable text)
    let activity := field v "activity" 2 Activity.ofJson
    check [slot "conversationOutcome" .defaulted outcome, slot "activity" .required activity]
    return .sendActivity (← present "id" id) (← outcome).join (← present "activity" activity)
  else if kind = "Question" then do
    let answer := field v "variable" 1 text
    let prompt := field v "prompt" 2 text
    let entity := field v "entity" 3 (constant .tagged EntityKind.name EntityKind.all)
    check [slot "variable" .required answer, slot "prompt" .required prompt,
      slot "entity" .required entity]
    return .question (← present "id" id) (← present "variable" answer) (← present "prompt" prompt)
      (← present "entity" entity)
  else if kind = "ConditionGroup" then do
    check [slot "conditions" .required items, slot "elseActions" .defaulted otherwise]
    return .conditionGroup (← present "id" id) (← present "conditions" items)
      ((← otherwise).getD [])
  else if kind = "SetVariable" then do
    let name := field v "variable" 1 text
    let content := field v "value" 2 Decode.value
    check [slot "variable" .required name, slot "value" .required content]
    return .setVariable (← present "id" id) (← present "variable" name) (← present "value" content)
  else if kind = "BeginDialog" then do
    let dialog := field v "dialog" 1 text
    check [slot "dialog" .required dialog]
    return .beginDialog (← present "id" id) (← present "dialog" dialog)
  else if kind = "InvokeConnectorAction" then do
    let connection := field v "connectionReference" 1 text
    let operation := field v "operationId" 2 text
    let inputs := field v "inputs" 3 Decode.fields
    check [slot "connectionReference" .required connection, slot "operationId" .required operation,
      slot "inputs" .required inputs]
    return .invokeConnector (← present "id" id) (← present "connectionReference" connection)
      (← present "operationId" operation) (← present "inputs" inputs)
  else if kind = "InvokeFlowAction" then do
    let flow := field v "flowId" 1 text
    let inputs := field v "inputs" 2 Decode.fields
    check [slot "flowId" .required flow, slot "inputs" .required inputs]
    return .invokeFlow (← present "id" id) (← present "flowId" flow) (← present "inputs" inputs)
  else if kind = "SearchAndSummarizeContent" then do
    let input := field v "userInput" 1 text
    let answer := field v "variable" 2 text
    check [slot "userInput" .required input, slot "variable" .required answer]
    return .searchAndSummarize (← present "id" id) (← present "userInput" input)
      (← present "variable" answer)
  else if kind = "EndConversation" then do
    check []
    return .endConversation (← present "id" id)
  else do
    check []
    return .cancelAllDialogs (← present "id" id)

def ofItem (v : Json) (actions : Decoded (Option (List Node))) : Decoded (ConditionItem Node) := do
  let id := field v "id" 0 text
  let predicate := field v "condition" 1 text
  checkRecord .tagged "ConditionItem" [slot "id" .required id,
    slot "condition" .required predicate, slot "actions" .required actions] v
  return ⟨← present "id" id, ← present "condition" predicate, ← present "actions" actions⟩

/-- Finds the kind, then reads the fields of that kind. -/
def ofTagged (framing : Framing) (v : Json) (items : Decoded (Option (List (ConditionItem Node))))
    (otherwise : Decoded (Option (List Node))) : Decoded Node :=
  match variant "ActionNode" "kind" framing kinds v with
  | .error e => .error e
  | .ok (kind, content) => ofKind kind content items otherwise

mutual

/-- A node; `framing` tells whether it stands inside another tagged value. -/
def ofJson (framing : Framing) : Json → Decoded Node
  | .object fields =>
      ofTagged framing (.object fields) (itemsIn fields) (listIn "elseActions" fields)
  | .array (tag :: row) => ofTagged framing (.array (tag :: row)) (itemsAt 1 row) (listAt 2 row)
  | v => ofTagged framing v (.ok none) (.ok none)

def itemsIn : List (String × Json) → Decoded (Option (List (ConditionItem Node)))
  | [] => .ok none
  | (k, v) :: rest => if k = "conditions" then (items v).map some else itemsIn rest

def itemsAt : Nat → List Json → Decoded (Option (List (ConditionItem Node)))
  | _, [] => .ok none
  | 0, v :: _ => (items v).map some
  | n + 1, _ :: rest => itemsAt n rest

def items : Json → Decoded (List (ConditionItem Node))
  | .array row => itemsOf row
  | v => .error (.wrongType (.of v) .sequence)

def itemsOf : List Json → Decoded (List (ConditionItem Node))
  | [] => .ok []
  | v :: rest =>
      match item v with
      | .error e => .error e
      | .ok i => (itemsOf rest).map (i :: ·)

def item : Json → Decoded (ConditionItem Node)
  | .object fields => ofItem (.object fields) (listIn "actions" fields)
  | .array row => ofItem (.array row) (listAt 2 row)
  | v => ofItem v (.ok none)

def listIn (key : String) : List (String × Json) → Decoded (Option (List Node))
  | [] => .ok none
  | (k, v) :: rest => if k = key then (list v).map some else listIn key rest

def listAt : Nat → List Json → Decoded (Option (List Node))
  | _, [] => .ok none
  | 0, v :: _ => (list v).map some
  | n + 1, _ :: rest => listAt n rest

def list : Json → Decoded (List Node)
  | .array row => listOf row
  | v => .error (.wrongType (.of v) .sequence)

def listOf : List Json → Decoded (List Node)
  | [] => .ok []
  | v :: rest =>
      match ofJson .tagged v with
      | .error e => .error e
      | .ok n => (listOf rest).map (n :: ·)

end

end Node

def Intent.ofJson (v : Json) : Decoded Intent := do
  let displayName := field v "displayName" 0 text
  let onSelect := field v "includeInOnSelectIntent" 1 boolean
  let queries := field v "triggerQueries" 2 texts
  checkRecord .tagged "Intent" [slot "displayName" .required displayName,
    slot "includeInOnSelectIntent" .required onSelect, slot "triggerQueries" .required queries] v
  return ⟨← present "displayName" displayName, ← present "includeInOnSelectIntent" onSelect,
    ← present "triggerQueries" queries⟩

def Trigger.ofJson (v : Json) : Decoded Trigger := do
  let kind := field v "kind" 0 (constant .tagged TriggerKind.name TriggerKind.all)
  let id := field v "id" 1 text
  let intent := field v "intent" 2 (nullable Intent.ofJson)
  let actions := field v "actions" 3 Node.list
  checkRecord .tagged "Trigger" [slot "kind" .required kind, slot "id" .required id,
    slot "intent" .defaulted intent, slot "actions" .required actions] v
  return ⟨← present "kind" kind, ← present "id" id, (← intent).join, ← present "actions" actions⟩

def readCustomizable (framing : Framing) (v : Json) : Decoded Bool := do
  let customizable := field v "isCustomizable" 0 boolean
  checkRecord framing "ManagedProperties" [slot "isCustomizable" .required customizable] v
  present "isCustomizable" customizable

def Dialog.readGraph (v : Json) : Decoded (Option StartBehavior × Trigger) := do
  let start := field v "startBehavior" 0
    (nullable (constant .tagged StartBehavior.name StartBehavior.all))
  let trigger := field v "beginDialog" 1 Trigger.ofJson
  checkRecord .tagged "Dialog" [slot "startBehavior" .defaulted start,
    slot "beginDialog" .required trigger] v
  return ((← start).join, ← present "beginDialog" trigger)

def Dialog.ofJson (v : Json) : Decoded Dialog := do
  let customizable := field v "managedProperties" 0 (readCustomizable .tagged)
  let displayName := field v "displayName" 1 text
  let parent := field v "parentBotId" 2 uuid
  let description := field v "description" 3 text
  let shareContext := field v "shareContext" 4 Decode.fields
  let state := field v "state" 5 text
  let status := field v "status" 6 text
  let schemaName := field v "schemaName" 7 text
  let graph := field v "dialog" 8 readGraph
  checkRecord .tagged "DialogComponent" [slot "managedProperties" .required customizable,
    slot "displayName" .required displayName, slot "parentBotId" .required parent,
    slot "description" .required description, slot "shareContext" .required shareContext,
    slot "state" .required state, slot "status" .required status,
    slot "schemaName" .required schemaName, slot "dialog" .required graph] v
  let (start, trigger) ← present "dialog" graph
  return {
    customizable := ← present "managedProperties" customizable
    displayName := ← present "displayName" displayName
    parentBotId := ← present "parentBotId" parent
    description := ← present "description" description
    shareContext := ← present "shareContext" shareContext
    state := ← present "state" state
    status := ← present "status" status
    schemaName := ← present "schemaName" schemaName
    startBehavior := start
    trigger := trigger }

def Instructions.ofJson (v : Json) : Decoded Instructions := do
  let customizable := field v "managedProperties" 0 (readCustomizable .tagged)
  let displayName := field v "displayName" 1 text
  let parent := field v "parentBotId" 2 uuid
  let shareContext := field v "shareContext" 3 Decode.fields
  let state := field v "state" 4 text
  let status := field v "status" 5 text
  let componentType := field v "componentTypeInt" 6 word
  let schemaName := field v "schemaName" 7 text
  let data := field v "data" 8 text
  checkRecord .tagged "InstructionsComponent" [slot "managedProperties" .required customizable,
    slot "displayName" .required displayName, slot "parentBotId" .required parent,
    slot "shareContext" .required shareContext, slot "state" .required state,
    slot "status" .required status, slot "componentTypeInt" .required componentType,
    slot "schemaName" .required schemaName, slot "data" .required data] v
  return {
    customizable := ← present "managedProperties" customizable
    displayName := ← present "displayName" displayName
    parentBotId := ← present "parentBotId" parent
    shareContext := ← present "shareContext" shareContext
    state := ← present "state" state
    status := ← present "status" status
    componentType := ← present "componentTypeInt" componentType
    schemaName := ← present "schemaName" schemaName
    data := ← present "data" data }

def Component.ofJson (v : Json) : Decoded Component := do
  let (kind, content) ← variant "Component" "kind" .plain
    ["DialogComponent", "LegacyOrUnknownComponent"] v
  if kind = "DialogComponent" then return .dialog (← Dialog.ofJson content)
  else return .instructions (← Instructions.ofJson content)

namespace BotEntity

def readSettings (v : Json) : Decoded Bool := do
  let enabled := field v "GenerativeActionsEnabled" 0 boolean
  checkRecord .plain "BotSettings" [slot "GenerativeActionsEnabled" .required enabled] v
  present "GenerativeActionsEnabled" enabled

def readSpeech (v : Json) : Decoded Bool := do
  let enabled := field v "isDomainLanguageModelEnabled" 0 boolean
  checkRecord .plain "BotSpeechSettings" [slot "isDomainLanguageModelEnabled" .required enabled] v
  present "isDomainLanguageModelEnabled" enabled

def readConfiguration (v : Json) : Decoded (Bool × Bool) := do
  let settings := field v "settings" 0 readSettings
  let speech := field v "botSpeechSettings" 1 readSpeech
  checkRecord .plain "BotConfiguration"
    [slot "settings" .required settings, slot "botSpeechSettings" .required speech] v
  return (← present "settings" settings, ← present "botSpeechSettings" speech)

def readState (v : Json) : Decoded (String × String) := do
  let provisioning := field v "provisioningStatus" 0 text
  let state := field v "state" 1 text
  checkRecord .plain "SynchronizationState"
    [slot "provisioningStatus" .required provisioning, slot "state" .required state] v
  return (← present "provisioningStatus" provisioning, ← present "state" state)

def readSynchronization (v : Json) : Decoded (UInt32 × String × String) := do
  let version := field v "contentVersion" 0 word
  let state := field v "currentSynchronizationState" 1 readState
  checkRecord .plain "SynchronizationStatus"
    [slot "contentVersion" .required version,
      slot "currentSynchronizationState" .required state] v
  return (← present "contentVersion" version, ← present "currentSynchronizationState" state)

def ofJson (v : Json) : Decoded BotEntity := do
  let customizable := field v "managedProperties" 0 (readCustomizable .plain)
  let displayName := field v "displayName" 1 text
  let schemaName := field v "schemaName" 2 text
  let componentId := field v "componentIdUnique" 3 uuid
  let botId := field v "cdsBotId" 4 uuid
  let policy := field v "accessControlPolicy" 5 text
  let mode := field v "authenticationMode" 6 text
  let trigger := field v "authenticationTrigger" 7 text
  let configuration := field v "configuration" 8 readConfiguration
  let synchronization := field v "synchronizationStatus" 9 readSynchronization
  let template := field v "template" 10 text
  let language := field v "language" 11 word
  let provider := field v "runtimeProvider" 12 text
  let state := field v "state" 13 text
  let status := field v "status" 14 word
  checkRecord .plain "BotEntity" [slot "managedProperties" .required customizable,
    slot "displayName" .required displayName, slot "schemaName" .required schemaName,
    slot "componentIdUnique" .required componentId, slot "cdsBotId" .required botId,
    slot "accessControlPolicy" .required policy, slot "authenticationMode" .required mode,
    slot "authenticationTrigger" .required trigger, slot "configuration" .required configuration,
    slot "synchronizationStatus" .required synchronization, slot "template" .required template,
    slot "language" .required language, slot "runtimeProvider" .required provider,
    slot "state" .required state, slot "status" .required status] v
  let (generativeActions, languageModel) ← present "configuration" configuration
  let (version, provisioning, synchronizationState) ←
    present "synchronizationStatus" synchronization
  return {
    customizable := ← present "managedProperties" customizable
    displayName := ← present "displayName" displayName
    schemaName := ← present "schemaName" schemaName
    componentId := ← present "componentIdUnique" componentId
    botId := ← present "cdsBotId" botId
    accessControlPolicy := ← present "accessControlPolicy" policy
    authenticationMode := ← present "authenticationMode" mode
    authenticationTrigger := ← present "authenticationTrigger" trigger
    generativeActions := generativeActions
    languageModel := languageModel
    contentVersion := version
    provisioningStatus := provisioning
    synchronizationState := synchronizationState
    template := ← present "template" template
    language := ← present "language" language
    runtimeProvider := ← present "runtimeProvider" provider
    state := ← present "state" state
    status := ← present "status" status }

end BotEntity

def BotDocument.ofJson (v : Json) : Decoded BotDocument := do
  let kind := field v "kind" 0 text
  let environment := field v "environmentId" 1 text
  let entity := field v "entity" 2 BotEntity.ofJson
  let components := field v "components" 3 (list Component.ofJson)
  checkRecord .plain "TargetDocument" [slot "kind" .required kind,
    slot "environmentId" .required environment, slot "entity" .required entity,
    slot "components" .required components] v
  return ⟨← present "kind" kind, ← present "environmentId" environment, ← present "entity" entity,
    ← present "components" components⟩

end Botwright
