import Botwright.Compile.Document
import Botwright.Schema.Validation
import Botwright.Spec.Reader
/-!
# From a value to a template

A value is checked against a schema, read as a specification and compiled. The events of these
steps are kept in order, up to the end or to the first failure.
-/
namespace Botwright

structure Draft where
  events : List LogEvent
  result : Except Failure Compilation

namespace Draft

def failed (events : List LogEvent) (reason : Failure) : Draft := ⟨events, .error reason⟩

/-- The template of a value that passes a schema; `unread` tells of a value that passes and still
does not decode. -/
def ofValue {σ : Type} [IdSource σ] (unread : DecodeError → Failure) (schema : Json)
    (options : Options) (source : σ) (v : Json) : Draft :=
  let violations := Schema.validate schema v
  let events := Schema.validationEvents violations
  match Schema.requireValid violations, Agent.ofJson v with
  | .error reason, _ => failed events reason
  | .ok (), .error e => failed events (unread e)
  | .ok (), .ok agent =>
      let outcome := agent.compile options source
      ⟨events ++ outcome.journal.events, outcome.result⟩

end Draft
end Botwright
