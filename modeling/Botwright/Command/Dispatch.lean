import Botwright.Command.Arguments
import Botwright.Command.Generate
import Botwright.Command.Init
import Botwright.Command.Validate
/-!
# Running a command

From arguments to a result in any file store.
-/
namespace Botwright.Command

def versionText : String := "af 0.1.0"

/-- Runs a command; every specification has an identifier source of its own. -/
def run {m : Type → Type} [Monad m] [FileStore m] {σ : Type} [IdSource σ] (sources : Nat → σ) :
    Invocation → m CommandResult
  | .validate specs schema => validate specs schema
  | .generate specs output config publisher environmentId =>
      generate sources specs output config publisher environmentId
  | .init name cloud directory force => init name cloud directory force

end Botwright.Command
