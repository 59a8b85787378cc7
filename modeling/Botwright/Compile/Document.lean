import Botwright.Compile.SystemTopics
import Botwright.Compile.References
import Botwright.Options.Basic
import Botwright.Template.Writer
import Botwright.Yaml.Printer
/-!
# Compiling an agent

A specification becomes a document: the entity, the instructions, the system topics and the
author's topics, in this order. Only an unusable name, an unusable publisher and two components of
one schema name stop a compilation; everything else is recovered from and recorded.
-/
namespace Botwright

structure Compilation where
  document : BotDocument
  diagnostics : Diagnostics
  /-- The cloud that the document is meant for. -/
  cloud : Cloud
deriving Inhabited

/-- What a compilation leaves: its result, its journal and the identifier source. What is recorded
and drawn before a failure remains. -/
structure Outcome (σ : Type) where
  result : Except Failure Compilation
  journal : Journal
  source : σ

namespace Agent

open Recording

def checkName (options : Options) (agent : Agent) : Except Failure String :=
  match agent.name with
  | none => .error (.missingField "name")
  | some name =>
      if (Naming.sanitizeSchema name).isEmpty then .error (.invalidName "name" name)
      else (Naming.checkPublisher options.publisher).map fun _ => name

def recordLanguage (agent : Agent) : Recording Unit := do
  match agent.language with
  | none => return
  | some tag =>
      unless (Catalogue.locale? tag).isSome do
        warn "unknown locale, using en-US" [("language", .text tag)]
        report "metadata.language" (.unknownLocale tag)

def cloudTag (options : Options) (agent : Agent) : String := agent.cloud.getD options.cloud

def recordCloud (options : Options) (agent : Agent) : Recording Unit := do
  let tag := agent.cloudTag options
  unless (Catalogue.cloud? tag).isSome do
    warn "unknown cloud, using commercial" [("cloud", .text tag)]
    report "metadata.cloud" (.unknownCloud tag)

/-- Generative actions are on unless capabilities are listed without them. -/
def usesGenerativeActions (agent : Agent) : Bool :=
  match agent.capabilities with
  | none => true
  | some capabilities => capabilities.contains "generative_actions"

def entity (publisher name : String) (botId componentId : Uuid) (agent : Agent) : BotEntity where
  customizable := false
  displayName := name
  schemaName := Naming.bot publisher name
  componentId := componentId
  botId := botId
  accessControlPolicy := "ChatbotReaders"
  authenticationMode := agent.authenticationMode.getD "Integrated"
  authenticationTrigger := "Always"
  generativeActions := agent.usesGenerativeActions
  languageModel := false
  contentVersion := 1
  provisioningStatus := "NotProvisioned"
  synchronizationState := "NotStarted"
  template := "default-2.1.0"
  language := (agent.language.map Catalogue.localeOf).getD Catalogue.defaultLocale
  runtimeProvider := "PowerVirtualAgents"
  state := activeState
  status := 1

def instructionsData (instructions : String) : String :=
  Yaml.print (.object [("kind", .string "GptComponentMetadata"),
    ("instructions", .string instructions), ("gptCapabilities", .object [])])

def instructionsComponent (publisher name : String) (botId : Uuid) (instructions : String) :
    Instructions where
  customizable := false
  displayName := name
  parentBotId := botId
  shareContext := []
  state := activeState
  status := activeState
  componentType := 15
  schemaName := Naming.instructions publisher name
  data := instructionsData instructions

/-- The failure of the first topic without a usable name. -/
def unusableTopic : Nat → List Topic → Option Failure
  | _, [] => none
  | index, t :: rest =>
      match t.checkName index with
      | .error e => some e
      | .ok () => unusableTopic (index + 1) rest

/-- The component that holds a schema name among those before, the latest first. -/
def duplicate (before : List Component) : List Component → Option Failure
  | [] => none
  | c :: rest =>
      match before.find? (·.schemaName == c.schemaName) with
      | some holder => some (.duplicateSchemaName c.schemaName holder.displayName c.displayName)
      | none => duplicate (c :: before) rest

variable {σ : Type} [IdSource σ]

def dialogs (publisher : String) (botId : Uuid) : List Topic → StateM σ (List Dialog)
  | [] => return []
  | t :: rest => do
      let dialog ← t.dialog publisher botId
      return dialog :: (← dialogs publisher botId rest)

/-- The document of a named agent whose usable topics are `topics`. -/
def assemble (options : Options) (agent : Agent) (name : String) (topics : List Topic) :
    StateM σ BotDocument := do
  let botId ← IdSource.uuid
  let componentId ← IdSource.uuid
  let system ← SystemTopics.all options.publisher botId name agent
  let user ← dialogs options.publisher botId topics
  let instructions := agent.instructions.map
    (Component.instructions ∘ instructionsComponent options.publisher name botId)
  return {
    kind := BotDocument.definitionKind
    environmentId := options.environmentId
    entity := agent.entity options.publisher name botId componentId
    components := instructions.toList ++ (system ++ user).map .dialog }

def recordAssembly (options : Options) (agent : Agent) (name : String) (topics : List Topic) :
    Recording Unit := do
  agent.recordLanguage
  agent.recordCloud options
  progress (.assembling name (Naming.bot options.publisher name))
  forM topics (Topic.record options.publisher)

def finalCheck (options : Options) (document : BotDocument) : Recording Unit := do
  if options.checkReferences then document.inspect

/-- Checks a finished document and returns it with all that has been found. -/
def conclude (options : Options) (agent : Agent) (name : String) (document : BotDocument) :
    Recording Compilation := do
  finalCheck options document
  let diagnostics := (← get).diagnostics
  let cloud := Catalogue.cloudOf (agent.cloudTag options)
  progress (.compiledAgent name document.components.length agent.topicList.length
    diagnostics.length cloud.name)
  return ⟨document, diagnostics, cloud⟩

/-- Compiles an agent with identifiers drawn from `source`. -/
def compile (options : Options) (agent : Agent) (source : σ) : Outcome σ :=
  match agent.checkName options with
  | .error e => ⟨.error e, .empty, source⟩
  | .ok name =>
      let topics := agent.topicList.takeWhile Topic.hasUsableName
      let ((), journal) := (agent.recordAssembly options name topics).run .empty
      let (document, source) := (agent.assemble options name topics).run source
      match unusableTopic 0 agent.topicList with
      | some e => ⟨.error e, journal, source⟩
      | none =>
          match duplicate [] document.components with
          | some e => ⟨.error e, journal, source⟩
          | none =>
              let (compilation, journal) := (agent.conclude options name document).run journal
              ⟨.ok compilation, journal, source⟩

end Agent
end Botwright
