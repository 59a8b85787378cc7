import Botwright.Decode.Record
import Botwright.Spec.Basic
/-!
# Reading specifications

Reading an action never fails: whatever does not fit is kept as written. So a specification is
refused only for the fields around its actions.
-/
namespace Botwright

open Decode

namespace Action

def ofKnownKind (kind : String) (fields : Json.Fields)
    (branches : Decoded (Option (List (Branch Action))))
    (otherwise : Decoded (Option (Option (List Action)))) : Decoded Action :=
  let v := Json.object fields
  let check := fun slots => checkRecord .tagged kind slots v
  if kind = "message" then do
    let text := field v "text" 0 text
    check [slot "text" .defaulted text]
    return .message ((← text).getD "")
  else if kind = "question" then do
    let prompt := field v "prompt" 0 Decode.text
    let answer := field v "variable" 1 (nullable Decode.text)
    let entity := field v "entity" 2 (nullable Decode.text)
    check [slot "prompt" .defaulted prompt, slot "variable" .defaulted answer,
      slot "entity" .defaulted entity]
    return .question ((← prompt).getD "") (← answer).join (← entity).join
  else if kind = "condition" then do
    check [slot "conditions" .defaulted branches, slot "else" .defaulted otherwise]
    return .condition ((← branches).getD []) (← otherwise).join
  else if kind = "set_variable" then do
    let name := field v "variable" 0 Decode.text
    let content := field v "value" 1 Decode.value
    check [slot "variable" .required name, slot "value" .defaulted content]
    return .setVariable (← present "variable" name) ((← content).getD .null)
  else if kind = "call_topic" then do
    let topic := field v "topic" 0 Decode.text
    check [slot "topic" .required topic]
    return .callTopic (← present "topic" topic)
  else if kind = "call_connector" then do
    let connector := field v "connector" 0 Decode.text
    let operation := field v "operation" 1 Decode.text
    let inputs := field v "inputs" 2 Decode.fields
    check [slot "connector" .required connector, slot "operation" .required operation,
      slot "inputs" .defaulted inputs]
    return .callConnector (← present "connector" connector) (← present "operation" operation)
      ((← inputs).getD [])
  else if kind = "call_flow" then do
    let flow := field v "flow" 0 Decode.text
    let inputs := field v "inputs" 1 Decode.fields
    check [slot "flow" .required flow, slot "inputs" .defaulted inputs]
    return .callFlow (← present "flow" flow) ((← inputs).getD [])
  else if kind = "generative_answer" then .ok .generativeAnswer
  else if kind = "end_conversation" then .ok .endConversation
  else .ok .escalate

def ofBranch (v : Json) (actions : Decoded (Option (List Action))) : Decoded (Branch Action) := do
  let condition := field v "if" 0 Decode.text
  checkRecord .tagged "ConditionBranch"
    [slot "if" .required condition, slot "then" .defaulted actions] v
  return ⟨← present "if" condition, (← actions).getD []⟩

/-- The alternative of a condition; `null` counts as absent. -/
def alternative (fields : Json.Fields) (actions : Decoded (Option (List Action))) :
    Decoded (Option (Option (List Action))) :=
  match Json.field? "else" fields with
  | some .null => .ok (some none)
  | _ => actions.map (·.map some)

/-- Settles what an object with the given type is. -/
def settle (kind : String) (body : Json) (known : Decoded Action) : Action :=
  if kind ∈ knownKinds then
    match known with
    | .ok action => action
    | .error reason => malformed kind body reason
  else unrecognized kind body

mutual

def ofJson : Json → Action
  | .object fields =>
      match Json.field? "type" fields with
      | some (.string kind) =>
          settle kind (.object fields)
            (ofKnownKind kind fields (branchesIn fields)
              (alternative fields (listIn "else" fields)))
      | _ => unrecognized missingKind (.object fields)
  | v => unrecognized missingKind v

def branchesIn : List (String × Json) → Decoded (Option (List (Branch Action)))
  | [] => .ok none
  | (k, v) :: rest => if k = "conditions" then (branches v).map some else branchesIn rest

def branches : Json → Decoded (List (Branch Action))
  | .array items => branchItems items
  | v => .error (.wrongType (.of v) .sequence)

def branchItems : List Json → Decoded (List (Branch Action))
  | [] => .ok []
  | v :: rest =>
      match branch v with
      | .error e => .error e
      | .ok b => (branchItems rest).map (b :: ·)

def branch : Json → Decoded (Branch Action)
  | .object fields => ofBranch (.object fields) (listIn "then" fields)
  | .array items => ofBranch (.array items) (listAt 1 items)
  | v => ofBranch v (.ok none)

def listIn (key : String) : List (String × Json) → Decoded (Option (List Action))
  | [] => .ok none
  | (k, v) :: rest => if k = key then (list v).map some else listIn key rest

def listAt : Nat → List Json → Decoded (Option (List Action))
  | _, [] => .ok none
  | 0, v :: _ => (list v).map some
  | n + 1, _ :: rest => listAt n rest

def list : Json → Decoded (List Action)
  | .array items => .ok (entries items)
  | v => .error (.wrongType (.of v) .sequence)

def entries : List Json → List Action
  | [] => []
  | v :: rest => ofJson v :: entries rest

end

end Action

def Topic.readTrigger (v : Json) : Decoded (List String) := do
  let phrases := field v "phrases" 0 texts
  checkRecord .plain "Triggers" [slot "phrases" .defaulted phrases] v
  return (← phrases).getD []

def Topic.ofJson (v : Json) : Decoded Topic := do
  let name := field v "name" 0 text
  let description := field v "description" 1 (nullable text)
  let trigger := field v "triggers" 2 (nullable readTrigger)
  let actions := field v "actions" 3 (nullable Action.list)
  checkRecord .plain "TopicSpec"
    [slot "name" .required name, slot "description" .optional description,
      slot "triggers" .optional trigger, slot "actions" .optional actions] v
  return ⟨← present "name" name, (← description).join, (← trigger).join, (← actions).join⟩

def Metadata.ofJson (v : Json) : Decoded Metadata := do
  let language := field v "language" 0 (nullable text)
  let cloud := field v "cloud" 1 (nullable text)
  let version := field v "version" 2 (nullable text)
  let description := field v "description" 3 (nullable text)
  checkRecord .plain "SpecMetadata"
    [slot "language" .optional language, slot "cloud" .optional cloud,
      slot "version" .optional version, slot "description" .optional description] v
  return ⟨(← language).join, (← cloud).join, (← version).join, (← description).join⟩

def Authentication.ofJson (v : Json) : Decoded Authentication := do
  let mode := field v "mode" 0 (nullable text)
  checkRecord .plain "Authentication" [slot "mode" .optional mode] v
  return ⟨(← mode).join⟩

def Security.ofJson (v : Json) : Decoded Security := do
  let authentication := field v "authentication" 0 (nullable Authentication.ofJson)
  checkRecord .plain "Security" [slot "authentication" .optional authentication] v
  return ⟨(← authentication).join⟩

def Agent.ofJson (v : Json) : Decoded Agent := do
  let name := field v "name" 0 (nullable text)
  let instructions := field v "instructions" 1 (nullable text)
  let greeting := field v "greeting" 2 (nullable text)
  let fallback := field v "fallbackMessage" 3 (nullable text)
  let escalation := field v "escalationMessage" 4 (nullable text)
  let capabilities := field v "capabilities" 5 (nullable texts)
  let metadata := field v "metadata" 6 (nullable Metadata.ofJson)
  let security := field v "security" 7 (nullable Security.ofJson)
  let topics := field v "topics" 8 (nullable (Decode.list Topic.ofJson))
  checkRecord .plain "AgentSpec"
    [slot "name" .optional name, slot "instructions" .optional instructions,
      slot "greeting" .optional greeting, slot "fallbackMessage" .optional fallback,
      slot "escalationMessage" .optional escalation, slot "capabilities" .optional capabilities,
      slot "metadata" .optional metadata, slot "security" .optional security,
      slot "topics" .optional topics] v
  return {
    name := (← name).join
    instructions := (← instructions).join
    greeting := (← greeting).join
    fallbackMessage := (← fallback).join
    escalationMessage := (← escalation).join
    capabilities := (← capabilities).join
    metadata := (← metadata).join
    security := (← security).join
    topics := (← topics).join }

end Botwright
