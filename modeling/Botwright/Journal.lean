import Botwright.Diagnostic
/-!
# The journal of a compilation

A compilation has two outputs. What it finds goes to the diagnostics, what it does goes to the log,
and each step adds to one of them only: where a compilation recovers from something, it warns in the
log and reports a finding, one after the other.
-/
namespace Botwright

inductive Level where
  | debug | info | warn
deriving DecidableEq, Inhabited

namespace Level

def rank : Level → Nat
  | debug => 0
  | info => 1
  | warn => 2

def name : Level → String
  | debug => "DEBUG"
  | info => "INFO"
  | warn => "WARN"

end Level

/-- The value of a field of a log event. A quoted text is shown in double quotes. -/
inductive FieldValue where
  | text (value : String)
  | quoted (value : String)
  | number (value : Nat)
deriving DecidableEq, Inhabited

structure LogEvent where
  level : Level
  message : String
  fields : List (String × FieldValue)
deriving DecidableEq, Inhabited

/-- Something that a compilation recovers from or remarks on. -/
inductive Finding where
  | unknownAction (kind : String)
  | malformedAction (kind : String) (reason : DecodeError)
  | invalidVariable (name : String)
  | unknownEntity (tag : String)
  | unknownLocale (tag : String)
  | unknownCloud (tag : String)
  | unresolvedTopic (schemaName : String)
  | unreachable (kind : String) (ending : Nat)
deriving DecidableEq, Inhabited

namespace Finding

def severity : Finding → Severity
  | unreachable .. => .info
  | _ => .warning

def code : Finding → String
  | unknownAction _ => "unknown-action"
  | malformedAction .. => "malformed-action"
  | invalidVariable _ => "invalid-variable-name"
  | unknownEntity _ => "unknown-entity-type"
  | unknownLocale _ => "unknown-locale"
  | unknownCloud _ => "unknown-cloud"
  | unresolvedTopic _ => "unresolved-topic-reference"
  | unreachable .. => "unreachable-action"

def message : Finding → String
  | unknownAction kind =>
      "unknown action type '" ++ kind ++ "' replaced with a placeholder message"
  | malformedAction kind reason =>
      "'" ++ kind ++ "' action is malformed (" ++ reason.message ++
        "), replaced with a placeholder"
  | invalidVariable name =>
      "variable name '" ++ name ++ "' has no usable characters; using 'Response'"
  | unknownEntity tag => "unknown entity type '" ++ tag ++ "' mapped to StringPrebuiltEntity"
  | unknownLocale tag => "unknown locale '" ++ tag ++ "' mapped to LCID 1033"
  | unknownCloud tag => "unknown cloud '" ++ tag ++ "' mapped to the commercial cloud"
  | unresolvedTopic schemaName =>
      "no topic with schema name '" ++ schemaName ++ "' exists in this document"
  | unreachable kind ending =>
      kind ++ " follows EndConversation at index " ++ toString ending ++ " and will never run"

def diagnostic (context : String) (f : Finding) : Diagnostic :=
  ⟨f.severity, f.code, context, f.message⟩

end Finding

inductive Progress where
  | assembling (agent schemaName : String)
  | compilingAction (kind context : String)
  | compiledTopic (topic schemaName : String) (phrases actions : Nat)
  | compiledAgent (agent : String) (components topics diagnostics : Nat) (cloud : String)
deriving DecidableEq, Inhabited

def Progress.event : Progress → LogEvent
  | assembling agent schemaName => ⟨.debug, "assembling bot definition",
      [("agent", .text agent), ("schema_name", .text schemaName)]⟩
  | compilingAction kind context => ⟨.debug, "compiling action",
      [("action_type", .quoted kind), ("context", .text context)]⟩
  | compiledTopic topic schemaName phrases actions => ⟨.debug, "compiled topic",
      [("topic", .text topic), ("schema_name", .text schemaName), ("phrases", .number phrases),
        ("actions", .number actions)]⟩
  | compiledAgent agent components topics diagnostics cloud => ⟨.info, "compiled agent spec",
      [("agent", .text agent), ("components", .number components), ("topics", .number topics),
        ("diagnostics", .number diagnostics), ("cloud", .text cloud)]⟩

/-- What a compilation has put out so far: its diagnostics, and the events in its log. -/
@[ext]
structure Journal where
  diagnostics : Diagnostics
  events : List LogEvent
deriving DecidableEq, Inhabited

namespace Journal

def empty : Journal := ⟨[], []⟩

instance : Append Journal :=
  ⟨fun j later => ⟨j.diagnostics ++ later.diagnostics, j.events ++ later.events⟩⟩

@[simp] theorem diagnostics_append (j later : Journal) :
    (j ++ later).diagnostics = j.diagnostics ++ later.diagnostics := rfl

@[simp] theorem events_append (j later : Journal) :
    (j ++ later).events = j.events ++ later.events := rfl

@[simp] theorem empty_append (j : Journal) : empty ++ j = j := rfl

@[simp] theorem append_empty (j : Journal) : j ++ empty = j :=
  Journal.ext (List.append_nil _) (List.append_nil _)

@[simp] theorem append_assoc (j k l : Journal) : j ++ k ++ l = j ++ (k ++ l) :=
  Journal.ext (List.append_assoc ..) (List.append_assoc ..)

end Journal

/-- A procedure that adds to the outputs of a compilation. -/
abbrev Recording := StateM Journal

namespace Recording

def log (e : LogEvent) : Recording Unit := modify fun j => { j with events := j.events ++ [e] }

def warn (message : String) (fields : List (String × FieldValue)) : Recording Unit :=
  log ⟨.warn, message, fields⟩

def progress (p : Progress) : Recording Unit := log p.event

def report (context : String) (f : Finding) : Recording Unit :=
  modify fun j => { j with diagnostics := j.diagnostics.push (f.diagnostic context) }

end Recording
end Botwright
