import Botwright.Spec.Basic
import Botwright.Text.Uppercase
/-!
# Starter specifications

The specification that a new agent begins with. Its name is the slug with every word capitalised.
-/
namespace Botwright.Starter

def defaultSlug : String := "my-agent"

def words (slug : List Char) : List (List Char) :=
  (split slug).filter (!·.isEmpty)
where
  split : List Char → List (List Char)
    | [] => [[]]
    | c :: rest =>
        if c = '-' then [] :: split rest
        else match split rest with
          | [] => [[c]]
          | word :: others => (c :: word) :: others

def capitalize : List Char → List Char
  | [] => []
  | c :: rest => Text.uppercase c ++ rest

/-- The capitalised words of a slug with spaces between them. -/
def displayName (slug : String) : String :=
  String.intercalate " " ((words slug.toList).map fun word => String.ofList (capitalize word))

def topic : Topic where
  name := "Getting Started"
  description := some "Explains what the agent can help with."
  trigger := some ["get started", "what can you do", "help"]
  actions := some
    [.message "I can answer questions. What would you like to know?", .generativeAnswer]

/-- The starter specification for a slug and a cloud. -/
def agent (slug cloud : String) : Agent where
  name := some (displayName slug)
  instructions := some "You are a helpful assistant."
  greeting := none
  fallbackMessage := none
  escalationMessage := none
  capabilities := some ["q_and_a", "generative_actions"]
  metadata := some ⟨some "en-US", some cloud, some "1.0.0",
    some "Description of what this agent does"⟩
  security := none
  topics := some [topic]

end Botwright.Starter
