import Botwright.Decode.Record
/-!
# Diagnostics

Findings about a specification or a document that do not stop the work. A list of diagnostics only
grows, and keeps the order in which the findings were made.
-/
namespace Botwright

inductive Severity where
  | info | warning
deriving DecidableEq, Inhabited

namespace Severity

def all : List Severity := [info, warning]

def name : Severity → String
  | info => "info"
  | warning => "warning"

end Severity

structure Diagnostic where
  severity : Severity
  code : String
  /-- Where the finding applies, such as `topic 'Billing' > actions[2]`. -/
  context : String
  message : String
deriving DecidableEq, Inhabited

abbrev Diagnostics := List Diagnostic

namespace Diagnostics

def push (ds : Diagnostics) (d : Diagnostic) : Diagnostics := ds ++ [d]

def withCode (code : String) (ds : Diagnostics) : Diagnostics := ds.filter (·.code == code)

def hasWarnings (ds : Diagnostics) : Bool := ds.any (·.severity == .warning)

end Diagnostics

open Decode

def Diagnostic.toJson (d : Diagnostic) : Json :=
  .object [("severity", .string d.severity.name), ("code", .string d.code),
    ("context", .string d.context), ("message", .string d.message)]

def Diagnostic.ofJson (v : Json) : Decoded Diagnostic := do
  let severity := field v "severity" 0 (constant .plain Severity.name Severity.all)
  let code := field v "code" 1 text
  let context := field v "context" 2 text
  let message := field v "message" 3 text
  checkRecord .plain "Diagnostic" [slot "severity" .required severity, slot "code" .required code,
    slot "context" .required context, slot "message" .required message] v
  return ⟨← present "severity" severity, ← present "code" code, ← present "context" context,
    ← present "message" message⟩

def Diagnostics.toJson (ds : Diagnostics) : Json :=
  .object [("entries", .array (ds.map Diagnostic.toJson))]

def Diagnostics.ofJson (v : Json) : Decoded Diagnostics := do
  let entries := field v "entries" 0 (list Diagnostic.ofJson)
  checkRecord .plain "Diagnostics" [slot "entries" .required entries] v
  present "entries" entries

end Botwright
