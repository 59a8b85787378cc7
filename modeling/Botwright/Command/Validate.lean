import Botwright.Command.Report
import Botwright.Schema.AgentSpec
import Botwright.Schema.WellFormed
/-!
# Validating specifications

Every specification is checked against one schema, the built-in one or that of a file.
-/
namespace Botwright.Command

variable {m : Type → Type} [Monad m] [FileStore m]

def schemaOf (path : String) (content : Except FileFault String) : Except Failure Json :=
  match content with
  | .error fault =>
      .error (.configuration ("failed to read schema file '" ++ path ++ "': " ++ fault.message))
  | .ok text =>
      match Yaml.parse? text with
      | none => .error (.configuration "failed to parse schema file")
      | some v => (Schema.checkDocument v).map fun _ => v

def loadSchema (path : Option String) : m (Except Failure Json) := do
  match path with
  | none => return .ok Schema.AgentSpec.document
  | some path => return schemaOf path (← FileStore.read path)

/-- Checks the text of a specification. -/
def validateText (schema : Json) (path : String) (content : Except FileFault String) : Report :=
  match valueOf path content with
  | .error reason => failed path reason
  | .ok v =>
      let violations := Schema.validate schema v
      let report : Report :=
        if violations.isEmpty then ⟨[.passed path none], true⟩
        else ⟨.failed path none :: violations.map .violation, false⟩
      report.events (Schema.validationEvents violations)

def validateOne (schema : Json) (path : String) : m Report := do
  return validateText schema path (← FileStore.read path)

/-- Checks specifications against a schema. -/
def validate (specs : List String) (schema : Option String) : m CommandResult := do
  match ← loadSchema schema with
  | .error reason => return .failed reason
  | .ok schema =>
      let reports ← specs.mapM (validateOne schema)
      return conclude (heading "Validating specs...") reports

end Botwright.Command
