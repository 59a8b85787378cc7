import Botwright.Spec.Basic
/-!
# Writing specifications

Fields in declaration order, the type of an action first; absent fields are left out. An action
that did not fit is written back as it was.
-/
namespace Botwright

open Json (presentFields)

namespace Action

mutual

def toJson : Action → Json
  | message text => .object [("type", .string "message"), ("text", .string text)]
  | question prompt answer entity =>
      .object (presentFields [("type", some (.string "question")),
        ("prompt", some (.string prompt)), ("variable", answer.map .string),
        ("entity", entity.map .string)])
  | condition branches none =>
      .object [("type", .string "condition"), ("conditions", .array (branchesToJson branches))]
  | condition branches (some otherwise) =>
      .object [("type", .string "condition"), ("conditions", .array (branchesToJson branches)),
        ("else", .array (listToJson otherwise))]
  | setVariable name value =>
      .object [("type", .string "set_variable"), ("variable", .string name), ("value", value)]
  | callTopic topic => .object [("type", .string "call_topic"), ("topic", .string topic)]
  | callConnector connector operation inputs =>
      .object [("type", .string "call_connector"), ("connector", .string connector),
        ("operation", .string operation), ("inputs", .object inputs)]
  | callFlow flow inputs =>
      .object [("type", .string "call_flow"), ("flow", .string flow), ("inputs", .object inputs)]
  | generativeAnswer => .object [("type", .string "generative_answer")]
  | endConversation => .object [("type", .string "end_conversation")]
  | escalate => .object [("type", .string "escalate")]
  | unrecognized _ body => body
  | malformed _ body _ => body

def branchesToJson : List (Branch Action) → List Json
  | [] => []
  | ⟨predicate, actions⟩ :: rest =>
      .object [("if", .string predicate), ("then", .array (listToJson actions))]
        :: branchesToJson rest

def listToJson : List Action → List Json
  | [] => []
  | a :: rest => toJson a :: listToJson rest

end

end Action

def Topic.toJson (t : Topic) : Json :=
  .object (presentFields [("name", some (.string t.name)),
    ("description", t.description.map .string),
    ("triggers", t.trigger.map fun phrases => .object [("phrases", Json.texts phrases)]),
    ("actions", t.actions.map fun actions => .array (Action.listToJson actions))])

def Metadata.toJson (m : Metadata) : Json :=
  .object (presentFields [("language", m.language.map .string), ("cloud", m.cloud.map .string),
    ("version", m.version.map .string), ("description", m.description.map .string)])

def Authentication.toJson (a : Authentication) : Json :=
  .object (presentFields [("mode", a.mode.map .string)])

def Security.toJson (s : Security) : Json :=
  .object (presentFields [("authentication", s.authentication.map Authentication.toJson)])

def Agent.toJson (a : Agent) : Json :=
  .object (presentFields [("name", a.name.map .string),
    ("instructions", a.instructions.map .string), ("greeting", a.greeting.map .string),
    ("fallbackMessage", a.fallbackMessage.map .string),
    ("escalationMessage", a.escalationMessage.map .string),
    ("capabilities", a.capabilities.map Json.texts),
    ("metadata", a.metadata.map Metadata.toJson), ("security", a.security.map Security.toJson),
    ("topics", a.topics.map fun topics => .array (topics.map Topic.toJson))])

end Botwright
