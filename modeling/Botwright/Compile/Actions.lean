import Botwright.Spec.Basic
import Botwright.Template.Basic
import Botwright.Catalogue
import Botwright.Naming
import Botwright.Journal
import Botwright.Identifier.Source
/-!
# Compiling actions

Every action becomes one node. What a compilation records about an action depends on the action and
its place only; the node depends on the publisher and the identifiers drawn.
-/
namespace Botwright

/-- The place of an element of a list. -/
def elementPath (path : String) (index : Nat) : String := path ++ "[" ++ toString index ++ "]"

def branchPath (path : String) (index : Nat) : String :=
  elementPath (path ++ ".conditions") index ++ ".then"

def elsePath (path : String) : String := path ++ ".else"

namespace Action

open Recording

def defaultVariable : String := "Response"

def currentTurn : String := "=System.Activity.Text"

def answerVariable : String := "Topic.Answer"

def isUsableVariable (name : String) : Bool := !(Naming.sanitizeVariable name).isEmpty

def resolveVariable (name : Option String) : String :=
  match name with
  | none => defaultVariable
  | some name => if isUsableVariable name then Naming.sanitizeVariable name else defaultVariable

def recordVariable (path : String) : Option String → Recording Unit
  | none => return
  | some name => do
      unless isUsableVariable name do
        warn "variable name sanitizes to nothing, using default"
          [("variable", .text name), ("context", .text path)]
        report path (.invalidVariable name)

def resolveEntity : Option String → EntityKind
  | none => Catalogue.defaultEntity
  | some tag => Catalogue.entityOf tag

def recordEntity (path : String) : Option String → Recording Unit
  | none => return
  | some tag => do
      unless (Catalogue.entity? tag).isSome do
        warn "unknown entity type, expecting a string"
          [("entity_type", .text tag), ("context", .text path)]
        report path (.unknownEntity tag)

def recordFaults (path : String) : Action → Recording Unit
  | unrecognized kind _ => do
      warn "unknown action type, emitting placeholder"
        [("action_type", .text kind), ("context", .text path)]
      report path (.unknownAction kind)
  | malformed kind _ reason => do
      warn "malformed action, emitting placeholder"
        [("action_type", .text kind), ("context", .text path), ("error", .text reason.message)]
      report path (.malformedAction kind reason)
  | question _ answer entity => do
      recordVariable path answer
      recordEntity path entity
  | setVariable name _ => recordVariable path (some name)
  | _ => return

def announce (path : String) (a : Action) : Recording Unit := do
  if a.isKnown then progress (.compilingAction a.kind path)

def recordOwn (path : String) (a : Action) : Recording Unit := do
  a.announce path
  a.recordFaults path

mutual

/-- Records an action and the actions inside it, depth first. -/
def record (path : String) : Action → Recording Unit
  | condition branches none => do
      recordOwn path (condition branches none)
      recordBranches path 0 branches
  | condition branches (some otherwise) => do
      recordOwn path (condition branches (some otherwise))
      recordBranches path 0 branches
      recordList (elsePath path) 0 otherwise
  | a => recordOwn path a

def recordBranches (path : String) : Nat → List (Branch Action) → Recording Unit
  | _, [] => return
  | index, ⟨_, actions⟩ :: rest => do
      recordList (branchPath path index) 0 actions
      recordBranches path (index + 1) rest

def recordList (path : String) : Nat → List Action → Recording Unit
  | _, [] => return
  | index, a :: rest => do
      record (elementPath path index) a
      recordList path (index + 1) rest

end

section Nodes

variable {σ : Type} [IdSource σ]

def bareId : StateM σ String := IdSource.token

def stemId (stem : String) : StateM σ String := do
  let token ← bareId
  return stem ++ "_" ++ token

def placeholder (text : String) : StateM σ Node := do
  return .sendActivity (← stemId "sendMessage") none (.text text)

mutual

/-- The node of an action. -/
def node (publisher : String) : Action → StateM σ Node
  | message text => do return .sendActivity (← stemId "sendMessage") none (.text text)
  | question prompt answer entity => do
      return .question (← stemId "question") (Naming.topicVariable (resolveVariable answer)) prompt
        (resolveEntity entity)
  | condition branches none => do
      let id ← stemId "conditionGroup"
      return .conditionGroup id (← conditionItems publisher branches) []
  | condition branches (some otherwise) => do
      let id ← stemId "conditionGroup"
      let items ← conditionItems publisher branches
      return .conditionGroup id items (← nodes publisher otherwise)
  | setVariable name value => do
      return .setVariable (← stemId "setVariable")
        (Naming.topicVariable (resolveVariable (some name))) value
  | callTopic topic => do return .beginDialog (← bareId) (Naming.topic publisher topic)
  | callConnector connector operation inputs => do
      return .invokeConnector (← stemId "connector") connector operation inputs
  | callFlow flow inputs => do return .invokeFlow (← stemId "flow") flow inputs
  | generativeAnswer => do
      return .searchAndSummarize (← stemId "search") currentTurn answerVariable
  | endConversation => do return .endConversation (← stemId "endConversation")
  | escalate => do return .beginDialog (← bareId) (Naming.topic publisher "Escalate")
  | unrecognized kind _ => placeholder ("[Unknown action: " ++ kind ++ "]")
  | malformed kind _ _ => placeholder ("[Malformed action: " ++ kind ++ "]")

def conditionItems (publisher : String) :
    List (Branch Action) → StateM σ (List (ConditionItem Node))
  | [] => return []
  | ⟨predicate, actions⟩ :: rest => do
      let id ← stemId "conditionItem"
      let actions ← nodes publisher actions
      return ⟨id, predicate, actions⟩ :: (← conditionItems publisher rest)

def nodes (publisher : String) : List Action → StateM σ (List Node)
  | [] => return []
  | a :: rest => do
      let n ← node publisher a
      return n :: (← nodes publisher rest)

end
end Nodes
end Action
end Botwright
