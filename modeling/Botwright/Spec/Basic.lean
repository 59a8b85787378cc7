import Botwright.Decode.Error
/-!
# Agent specifications

What an author declares: the agent, its topics and the actions of each topic. Every field of the
agent may be left out. An action is kept even when its type is unknown or its fields do not fit.
-/
namespace Botwright

/-- A predicate with the actions that run when it holds. -/
structure Branch (α : Type) where
  condition : String
  actions : List α
deriving Inhabited

/-- One step of a topic. -/
inductive Action where
  | message (text : String)
  | question (prompt : String) (answer : Option String) (entity : Option String)
  | condition (branches : List (Branch Action)) (otherwise : Option (List Action))
  | setVariable (name : String) (value : Json)
  | callTopic (topic : String)
  | callConnector (connector operation : String) (inputs : Json.Fields)
  | callFlow (flow : String) (inputs : Json.Fields)
  | generativeAnswer
  | endConversation
  | escalate
  /-- A type outside the known ones, with the action as written. -/
  | unrecognized (kind : String) (body : Json)
  /-- A known type whose fields do not fit, with the action as written and the reason. -/
  | malformed (kind : String) (body : Json) (reason : DecodeError)
deriving Inhabited

namespace Action

def knownKinds : List String :=
  ["message", "question", "condition", "set_variable", "call_topic", "call_connector",
    "call_flow", "generative_answer", "end_conversation", "escalate"]

/-- Stands for the type of an action that has none. -/
def missingKind : String := "<missing>"

def kind : Action → String
  | message .. => "message"
  | question .. => "question"
  | condition .. => "condition"
  | setVariable .. => "set_variable"
  | callTopic .. => "call_topic"
  | callConnector .. => "call_connector"
  | callFlow .. => "call_flow"
  | generativeAnswer => "generative_answer"
  | endConversation => "end_conversation"
  | escalate => "escalate"
  | unrecognized kind _ => kind
  | malformed kind _ _ => kind

def isKnown : Action → Bool
  | unrecognized .. | malformed .. => false
  | _ => true

/-- An unrecognized action that carries nothing but its type. -/
def ofUnknownKind (kind : String) : Action :=
  unrecognized kind (.object [("type", .string kind)])

mutual

def same : Action → Action → Bool
  | message a, message b => a == b
  | question a b c, question d e f => a == d && b == e && c == f
  | condition a b, condition c d =>
      sameBranches a c &&
        match b, d with
        | none, none => true
        | some b, some d => sameList b d
        | _, _ => false
  | setVariable a b, setVariable c d => a == c && b == d
  | callTopic a, callTopic b => a == b
  | callConnector a b c, callConnector d e f => a == d && b == e && Json.sameFields c f
  | callFlow a b, callFlow c d => a == c && Json.sameFields b d
  | generativeAnswer, generativeAnswer => true
  | endConversation, endConversation => true
  | escalate, escalate => true
  | unrecognized a b, unrecognized c d => a == c && b == d
  | malformed a b c, malformed d e f => a == d && b == e && c == f
  | _, _ => false

def sameBranches : List (Branch Action) → List (Branch Action) → Bool
  | [], [] => true
  | ⟨c, a⟩ :: as, ⟨d, b⟩ :: bs => c == d && sameList a b && sameBranches as bs
  | _, _ => false

def sameList : List Action → List Action → Bool
  | [], [] => true
  | a :: as, b :: bs => same a b && sameList as bs
  | _, _ => false

end

instance : BEq Action := ⟨same⟩

end Action

structure Topic where
  name : String
  description : Option String
  /-- The phrases of the trigger, if a trigger is declared. -/
  trigger : Option (List String)
  actions : Option (List Action)
deriving Inhabited, BEq

structure Metadata where
  language : Option String
  cloud : Option String
  version : Option String
  description : Option String
deriving Inhabited, DecidableEq

structure Authentication where
  mode : Option String
deriving Inhabited, DecidableEq

structure Security where
  authentication : Option Authentication
deriving Inhabited, DecidableEq

structure Agent where
  name : Option String
  instructions : Option String
  greeting : Option String
  fallbackMessage : Option String
  escalationMessage : Option String
  capabilities : Option (List String)
  metadata : Option Metadata
  security : Option Security
  topics : Option (List Topic)
deriving Inhabited, BEq

namespace Topic

def phrases (t : Topic) : List String := t.trigger.getD []

def actionList (t : Topic) : List Action := t.actions.getD []

end Topic

namespace Agent

def empty : Agent := ⟨none, none, none, none, none, none, none, none, none⟩

def language (a : Agent) : Option String := a.metadata.bind (·.language)

def cloud (a : Agent) : Option String := a.metadata.bind (·.cloud)

def authenticationMode (a : Agent) : Option String :=
  (a.security.bind (·.authentication)).bind (·.mode)

def topicList (a : Agent) : List Topic := a.topics.getD []

end Agent
end Botwright
