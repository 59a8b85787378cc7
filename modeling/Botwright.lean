import Botwright.Catalogue
import Botwright.Command.Arguments
import Botwright.Command.Dispatch
import Botwright.Command.Generate
import Botwright.Command.Init
import Botwright.Command.Line
import Botwright.Command.Report
import Botwright.Command.Validate
import Botwright.Compile.Actions
import Botwright.Compile.Document
import Botwright.Compile.Draft
import Botwright.Compile.References
import Botwright.Compile.Session
import Botwright.Compile.SystemTopics
import Botwright.Compile.Topics
import Botwright.Decimal.Binary64
import Botwright.Decimal.Numeral
import Botwright.Decimal.Shortest
import Botwright.Decode.Error
import Botwright.Decode.Record
import Botwright.Diagnostic
import Botwright.Failure
import Botwright.Files.Path
import Botwright.Files.Store
import Botwright.Files.Tree
import Botwright.Identifier.Random
import Botwright.Identifier.Source
import Botwright.Journal
import Botwright.Json.Basic
import Botwright.Json.Pointer
import Botwright.Json.Printer
import Botwright.Json.Reader
import Botwright.Main
import Botwright.Naming
import Botwright.Options.Basic
import Botwright.Options.FromToml
import Botwright.Schema.AgentSpec
import Botwright.Schema.Rule
import Botwright.Schema.Validation
import Botwright.Schema.WellFormed
import Botwright.Spec.Basic
import Botwright.Spec.FromYaml
import Botwright.Spec.Reader
import Botwright.Spec.Writer
import Botwright.Starter
import Botwright.Template.Basic
import Botwright.Template.Reader
import Botwright.Template.Writer
import Botwright.Text.Hidden
import Botwright.Text.Numeral
import Botwright.Text.Quoted
import Botwright.Text.Uppercase
import Botwright.Toml.Excerpt
import Botwright.Toml.Item
import Botwright.Toml.Reader
import Botwright.Toml.Scalar
import Botwright.Toml.Scan
import Botwright.Toml.Text
import Botwright.Uuid
import Botwright.Yaml.Anchor
import Botwright.Yaml.Content
import Botwright.Yaml.Cursor
import Botwright.Yaml.Node
import Botwright.Yaml.Printer
import Botwright.Yaml.Scalar
import Botwright.Yaml.Shape
import Botwright.Yaml.Style
import Botwright.Yaml.Token
import Botwright.Proofs.Identifier.Draws
import Botwright.Proofs.Identifier.Tokens
import Botwright.Proofs.SchemaNames
import Botwright.Proofs.Compile.Assembly
import Botwright.Proofs.Compile.Recording
import Botwright.Proofs.Compile.Check
import Botwright.Proofs.Compile.Outcome
import Botwright.Proofs.Compile.Acceptance
import Botwright.Proofs.Compile.SchemaKeys
import Botwright.Proofs.Compile.Allocation
import Botwright.Proofs.Identifier.Random
import Botwright.Proofs.Identifier.Streams
import Botwright.Proofs.Compile.Session
import Botwright.Proofs.Decode.Record
import Botwright.Proofs.Spec.Reading
import Botwright.Proofs.Spec.Nesting
import Botwright.Proofs.Spec.Locality
import Botwright.Proofs.Spec.Records
import Botwright.Proofs.Spec.RoundTrip
import Botwright.Proofs.Schema.Conforming
import Botwright.Proofs.Schema.Agreement
import Botwright.Proofs.Compile.Places
import Botwright.Proofs.Compile.References
import Botwright.Proofs.Compile.Mirror
import Botwright.Proofs.Compile.Findings
import Botwright.Proofs.Identifier.Texts
import Botwright.Proofs.Template.RoundTrip
import Botwright.Proofs.Compile.Erasure
import Botwright.Proofs.Compile.Irrelevance
import Botwright.Proofs.Json.Pointer
import Botwright.Proofs.Schema.Grammar
import Botwright.Proofs.Compile.DepthFirst
import Botwright.Proofs.Compile.Diagnostics
import Botwright.Proofs.Compile.Renaming
import Botwright.Proofs.Compile.Publisher
import Botwright.Proofs.Compile.Outline
import Botwright.Proofs.Compile.TopicOrder
import Botwright.Proofs.Files.Frame
import Botwright.Proofs.Files.Paths
import Botwright.Proofs.Files.Directories
import Botwright.Proofs.Command.Writing
import Botwright.Proofs.Command.Independence
import Botwright.Proofs.Compile.Visits
import Botwright.Proofs.Compile.Contexts
import Botwright.Proofs.Compile.EmittedNames
import Botwright.Proofs.Text.Splitting
import Botwright.Proofs.Starter
import Botwright.Proofs.Identifier.Periods
import Botwright.Proofs.Files.System
import Botwright.Proofs.Command.Undisturbed
import Botwright.Proofs.Command.Starting
import Botwright.Proofs.Command.Verdicts
import Botwright.Proofs.Compile.InStep
import Botwright.Proofs.Compile.Log
import Botwright.Proofs.Files.Closed
