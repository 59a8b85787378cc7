import Botwright.Failure
/-!
# Schema names

Every name in a document is the publisher's name, a kind and the usable characters of what the
author wrote.
-/
namespace Botwright.Naming

def isAlphanumeric (c : Char) : Bool :=
  ('a' ≤ c && c ≤ 'z') || ('A' ≤ c && c ≤ 'Z') || ('0' ≤ c && c ≤ '9')

/-- Keeps the ASCII letters and digits. -/
def sanitizeSchema (name : String) : String := String.ofList (name.toList.filter isAlphanumeric)

/-- Keeps the ASCII letters, digits and underscores. -/
def sanitizeVariable (name : String) : String :=
  String.ofList (name.toList.filter fun c => isAlphanumeric c || c == '_')

def bot (publisher agent : String) : String := publisher ++ "_" ++ sanitizeSchema agent

def instructions (publisher agent : String) : String :=
  publisher ++ "_" ++ sanitizeSchema agent ++ "_gpt_default"

def topic (publisher name : String) : String := publisher ++ "_topic_" ++ sanitizeSchema name

/-- A variable of a topic that is set up on first assignment. -/
def topicVariable (name : String) : String := "init:Topic." ++ name

/-- A publisher's name becomes a part of schema names as it stands. -/
def isPublisher (publisher : String) : Bool :=
  !publisher.isEmpty && publisher.toList.all isAlphanumeric

def checkPublisher (publisher : String) : Except Failure Unit :=
  if isPublisher publisher then .ok ()
  else .error (.configuration
    ("prefix '" ++ publisher ++ "' must be non-empty and ASCII alphanumeric"))

end Botwright.Naming
