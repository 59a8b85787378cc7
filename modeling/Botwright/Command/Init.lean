import Botwright.Command.Report
import Botwright.Spec.Writer
import Botwright.Starter
import Botwright.Yaml.Printer
/-!
# Starting an agent

A starter specification is written for a new agent.
-/
namespace Botwright.Command

variable {m : Type → Type} [Monad m] [FileStore m]

/-- Writes a starter specification, but not over a file that is there already. -/
def init (name : Option String) (cloud directory : String) (force : Bool) : m CommandResult := do
  let slug := name.getD Starter.defaultSlug
  let path := Path.join directory (slug ++ ".yaml")
  if !force && (← FileStore.isPresent path) then
    return .failed (.inputOutput ("'" ++ path ++ "' already exists; pass --force to overwrite"))
  else
    match ← writeFile path (Yaml.print (Starter.agent slug cloud).toJson) with
    | .error reason => return .failed reason
    | .ok () => return ⟨[.created path], .ok true⟩

end Botwright.Command
