/-!
# Failures

What stops the work on a specification, with one message for each kind.
-/
namespace Botwright

inductive Failure where
  | missingField (field : String)
  | invalidName (field value : String)
  | duplicateSchemaName (schemaName first second : String)
  | serialization (reason : String)
  | configuration (reason : String)
  | schemaViolation (reason : String)
  | inputOutput (reason : String)
deriving DecidableEq, Inhabited

namespace Failure

def message : Failure → String
  | missingField field => "required field '" ++ field ++ "' is missing from the agent spec"
  | invalidName field value =>
      "field '" ++ field ++ "' value '" ++ value ++ "' does not yield a usable schema name"
  | duplicateSchemaName schemaName first second =>
      "schema name '" ++ schemaName ++ "' is produced by both '" ++ first ++ "' and '" ++ second
        ++ "'"
  | serialization reason => "serialization error: " ++ reason
  | configuration reason => "configuration error: " ++ reason
  | schemaViolation reason => "schema validation error: " ++ reason
  | inputOutput reason => "i/o error: " ++ reason

end Failure
end Botwright
