import Botwright.Json.Basic
/-!
# The schema of agent specifications

Checks the shape that a compilation relies on. Unknown action types and extra keys pass, because a
compilation recovers from those itself.
-/
namespace Botwright.Schema.AgentSpec

def identifier : String := "https://agentfactory.dev/schemas/agent-spec.json"

def text : Json := .object [("type", .string "string")]

def nonEmptyText : Json := .object [("minLength", .int 1), ("type", .string "string")]

def listOf (schema : Json) : Json := .object [("items", schema), ("type", .string "array")]

def recordOf (properties : Json.Fields) : Json :=
  .object [("properties", .object properties), ("type", .string "object")]

def recordWith (required : String) (properties : Json.Fields) : Json :=
  .object [("properties", .object properties), ("required", .array [.string required]),
    ("type", .string "object")]

def definition (name : String) : Json := .object [("$ref", .string ("#/$defs/" ++ name))]

def branch : Json := recordWith "if" [("if", text), ("then", definition "actions")]

def action : Json :=
  recordWith "type" [("conditions", listOf branch), ("else", definition "actions"), ("type", text)]

def topic : Json :=
  recordWith "name" [("actions", definition "actions"), ("description", text),
    ("name", nonEmptyText), ("triggers", recordOf [("phrases", listOf text)])]

def definitions : Json.Fields :=
  [("action", action), ("actions", listOf (definition "action")), ("topic", topic)]

def properties : Json.Fields :=
  [("capabilities", listOf text), ("escalationMessage", text), ("fallbackMessage", text),
    ("greeting", text), ("instructions", text),
    ("metadata", recordOf [("cloud", text), ("description", text), ("language", text),
      ("version", text)]),
    ("name", nonEmptyText),
    ("security", recordOf [("authentication", recordOf [("mode", text)])]),
    ("topics", listOf (definition "topic"))]

/-- The schema document, its keys in byte order. -/
def document : Json :=
  .object [("$defs", .object definitions), ("$id", .string identifier),
    ("$schema", .string "https://json-schema.org/draft/2020-12/schema"),
    ("properties", .object properties), ("required", .array [.string "name"]),
    ("title", .string "Agent spec"), ("type", .string "object")]

end Botwright.Schema.AgentSpec
