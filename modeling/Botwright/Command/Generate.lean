import Botwright.Command.Report
import Botwright.Compile.Draft
import Botwright.Options.FromToml
import Botwright.Schema.AgentSpec
/-!
# Generating templates

Every specification that passes is compiled and its template written, with the options of a file
and those that are given on their own.
-/
namespace Botwright.Command

variable {m : Type → Type} [Monad m] [FileStore m]

/-- Where the template of a specification goes: into a directory, under the specification's stem,
or to the given path. -/
def destination (spec output : String) : String :=
  if Path.isDirectoryPath output then
    Path.join output ((Path.stem? spec).getD "agent" ++ "-template.yaml")
  else output

def unread (path : String) (e : DecodeError) : Failure :=
  .serialization ("failed to read spec '" ++ path ++ "': " ++ e.message)

def draft {σ : Type} [IdSource σ] (options : Options) (source : σ) (path : String)
    (content : Except FileFault String) : Draft :=
  match valueOf path content with
  | .error reason => .failed [] reason
  | .ok v => .ofValue (unread path) Schema.AgentSpec.document options source v

def writtenEvent (spec template : String) (c : Compilation) : LogEvent :=
  ⟨.debug, "template written",
    [("spec", .text spec), ("template", .text template), ("cloud", .text c.cloud.name)]⟩

/-- Compiles one specification and writes its template. -/
def generateOne {σ : Type} [IdSource σ] (options : Options) (output : String) (source : σ)
    (spec : String) : m Report := do
  let d := draft options source spec (← FileStore.read spec)
  match d.result with
  | .error reason => return (failed spec reason).events d.events
  | .ok c =>
      let target := destination spec output
      let remarks := d.events.map .event ++ c.diagnostics.map .remark
      match ← writeFile target (Yaml.print c.document.toJson) with
      | .error reason => return ⟨remarks ++ [.failed spec (some reason)], false⟩
      | .ok () =>
          return ⟨remarks ++ [.event (writtenEvent spec target c), .passed spec (some target)],
            true⟩

def generateAll {σ : Type} [IdSource σ] (options : Options) (output : String)
    (sources : Nat → σ) : Nat → List String → m (List Report)
  | _, [] => return []
  | index, spec :: rest => do
      let report ← generateOne options output (sources index) spec
      return report :: (← generateAll options output sources (index + 1) rest)

def optionsOf (path : String) (content : Except FileFault String) : Except Failure Options :=
  match content with
  | .error fault =>
      .error (.configuration ("failed to read options file '" ++ path ++ "': " ++ fault.message))
  | .ok text => Options.ofToml text

/-- Options that are given on their own replace those of a file. -/
def override (publisher environmentId : Option String) (options : Options) : Options :=
  { options with
    publisher := publisher.getD options.publisher
    environmentId := environmentId.getD options.environmentId }

def loadOptions (config : Option String) : m (Except Failure (Options × List LogEvent)) := do
  match config with
  | none => return .ok ({}, [])
  | some path =>
      return (optionsOf path (← FileStore.read path)).map fun o => (o, [o.loadedEvent])

/-- Compiles specifications into templates. -/
def generate {σ : Type} [IdSource σ] (sources : Nat → σ) (specs : List String) (output : String)
    (config publisher environmentId : Option String) : m CommandResult := do
  match ← loadOptions config with
  | .error reason => return .failed reason
  | .ok (options, events) =>
      let reports ← generateAll (override publisher environmentId options) output sources 0 specs
      return conclude (events.map .event ++ heading "Generating templates...") reports

end Botwright.Command
