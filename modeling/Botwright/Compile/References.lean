import Botwright.Compile.Actions
import Botwright.Compile.Topics
/-!
# References and reachability

A finished document is checked for dialogs that no component answers to, and for nodes that stand
behind the end of their list. References are checked once all components are there, so a topic may
refer to a later one.
-/
namespace Botwright

namespace Node

open Recording

def isEnding : Node → Bool
  | endConversation _ => true
  | _ => false

/-- A node behind the end of its list never runs. That is worth a remark, but no warning. -/
def inspectReach (path : String) (ended : Option Nat) (n : Node) : Recording Unit :=
  match ended with
  | none => return
  | some ending => report path (.unreachable n.kind ending)

def warnUnresolved (path dialog : String) : Recording Unit := do
  warn "topic reference does not resolve"
    [("target_topic", .text dialog), ("context", .text path)]
  report path (.unresolvedTopic dialog)

mutual

def inspect (known : List String) (path : String) : Node → Recording Unit
  | beginDialog _ dialog => do
      unless dialog ∈ known do
        warnUnresolved path dialog
  | conditionGroup _ items otherwise => do
      inspectItems known path 0 items
      inspectList known (elsePath path) 0 none otherwise
  | _ => return

def inspectItems (known : List String) (path : String) :
    Nat → List (ConditionItem Node) → Recording Unit
  | _, [] => return
  | index, ⟨_, _, actions⟩ :: rest => do
      inspectList known (branchPath path index) 0 none actions
      inspectItems known path (index + 1) rest

/-- Checks a list from position `index` on; `ended` is the position of the first end of the
conversation before it. -/
def inspectList (known : List String) (path : String) :
    Nat → Option Nat → List Node → Recording Unit
  | _, _, [] => return
  | index, ended, n :: rest => do
      let here := elementPath path index
      inspectReach here ended n
      inspect known here n
      inspectList known path (index + 1)
        (if ended.isNone && n.isEnding then some index else ended) rest

end

end Node

def Dialog.inspect (known : List String) (d : Dialog) : Recording Unit :=
  Node.inspectList known (topicPath d.displayName) 0 none d.trigger.actions

namespace BotDocument

/-- Checks a document, dialog by dialog and depth first. -/
def inspect (d : BotDocument) : Recording Unit := forM d.dialogs (Dialog.inspect d.schemaNames)

/-- Checks a document by hand, into diagnostics that are there already. -/
def checkInto (d : BotDocument) (ds : Diagnostics) : Diagnostics :=
  (d.inspect ⟨ds, []⟩).2.diagnostics

end BotDocument
end Botwright
