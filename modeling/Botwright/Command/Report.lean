import Botwright.Command.Line
import Botwright.Files.Store
import Botwright.Yaml.Shape
/-!
# Reports

Specifications are handled one after another, and a failing one does not keep the others from being
handled. A command that cannot be set up handles none.
-/
namespace Botwright.Command

variable {m : Type → Type} [Monad m] [FileStore m]

/-- What became of one specification. -/
structure Report where
  lines : List CommandLine
  ok : Bool
deriving Inhabited

def Report.events (report : Report) (events : List LogEvent) : Report :=
  { report with lines := events.map .event ++ report.lines }

def failed (path : String) (reason : Failure) : Report := ⟨[.failed path (some reason)], false⟩

/-- The result of a command that handled its specifications under a heading. -/
def conclude (before : List CommandLine) (reports : List Report) : CommandResult :=
  ⟨before ++ reports.flatMap (·.lines), .ok (reports.all (·.ok))⟩

def heading (text : String) : List CommandLine := [.heading text]

def unreadable (path : String) (fault : FileFault) : Failure :=
  .inputOutput ("failed to read '" ++ path ++ "': " ++ fault.message)

def valueOf (path : String) (content : Except FileFault String) : Except Failure Json :=
  match content with
  | .error fault => .error (unreadable path fault)
  | .ok text =>
      match Yaml.parse? text with
      | none => .error (.serialization ("failed to parse '" ++ path ++ "'"))
      | some v => .ok v

def uncreatable (path : String) (fault : FileFault) : Failure :=
  .inputOutput ("failed to create '" ++ path ++ "': " ++ fault.message)

def unwritable (path : String) (fault : FileFault) : Failure :=
  .inputOutput ("failed to write '" ++ path ++ "': " ++ fault.message)

def makeAbove (path : String) : m (Except Failure Unit) := do
  match (Path.parent? path).filter (!·.isEmpty) with
  | none => return .ok ()
  | some above =>
      let made ← FileStore.makeDirectories (Path.ancestors above)
      return made.mapError (uncreatable above)

def writeFile (path text : String) : m (Except Failure Unit) := do
  match ← makeAbove path with
  | .error reason => return .error reason
  | .ok () =>
      let written ← FileStore.write path text
      return written.mapError (unwritable path)

end Botwright.Command
