import BuildPlan.Assoc
import BuildPlan.Build.Compile
import BuildPlan.Build.Run
import BuildPlan.Build.Session
import BuildPlan.Checksum.Crc32
import BuildPlan.CommandLine.Arguments
import BuildPlan.CommandLine.Command
import BuildPlan.Description.Entity
import BuildPlan.Description.Field
import BuildPlan.Description.Program
import BuildPlan.Description.Value
import BuildPlan.Document.Input
import BuildPlan.Document.Output
import BuildPlan.Error
import BuildPlan.Flag.Definition
import BuildPlan.Flag.Digest
import BuildPlan.Flag.Factory
import BuildPlan.Flag.Memory
import BuildPlan.Flag.Registry
import BuildPlan.Generate
import BuildPlan.Graph.Basic
import BuildPlan.Graph.Rule
import BuildPlan.Graph.Statement
import BuildPlan.Graph.Step
import BuildPlan.Json.Reader
import BuildPlan.Json.Value
import BuildPlan.Json.Writer
import BuildPlan.Main
import BuildPlan.Ninja.Escape
import BuildPlan.Ninja.File
import BuildPlan.Ninja.Reader
import BuildPlan.Numeral.Binary64
import BuildPlan.Numeral.Decimal
import BuildPlan.Numeral.Integer
import BuildPlan.Numeral.Shortest
import BuildPlan.Package.Basic
import BuildPlan.Package.Discovery
import BuildPlan.Package.Load
import BuildPlan.Path.Basic
import BuildPlan.Path.Lexical
import BuildPlan.Pattern.Basic
import BuildPlan.Pattern.Matching
import BuildPlan.Pattern.Reader
import BuildPlan.Proofs.Graph.Frontier
import BuildPlan.Proofs.Graph.OutputTable
import BuildPlan.Proofs.Graph.Records
import BuildPlan.Proofs.Graph.RuleTable
import BuildPlan.Proofs.Graph.SortedEdges
import BuildPlan.Selection
import BuildPlan.Shell.Split
import BuildPlan.Shell.Word
import BuildPlan.Store.Basic
import BuildPlan.Store.Error
import BuildPlan.Store.Operations
import BuildPlan.Target.Closure
import BuildPlan.Target.Entity
import BuildPlan.Target.Expression
import BuildPlan.Target.Program
import BuildPlan.Target.Toolchain
import BuildPlan.Template.Basic
import BuildPlan.Template.Reader
import BuildPlan.Template.Render
import BuildPlan.Template.Segment
import BuildPlan.Text.Blank
import BuildPlan.Text.CharSet
import BuildPlan.Text.DecimalDigit
import BuildPlan.Text.Hex
import BuildPlan.Text.Lowercase
import BuildPlan.Text.Order
import BuildPlan.Text.Printable
import BuildPlan.Text.Quoted
import BuildPlan.Text.Uppercase
import BuildPlan.Text.WordChar
import BuildPlan.Workspace
import BuildPlan.Proofs.Build.AddSteps
import BuildPlan.Proofs.Build.Effect
import BuildPlan.Proofs.Build.Target
import BuildPlan.Proofs.Build.Forgetting
import BuildPlan.Proofs.Build.Frontier
import BuildPlan.Proofs.Build.Reach
import BuildPlan.Proofs.Build.Memory
import BuildPlan.Proofs.Build.Operation
import BuildPlan.Proofs.Ninja.Naming
import BuildPlan.Proofs.Ninja.RuleNames
import BuildPlan.Proofs.Build.Program
import BuildPlan.Proofs.Build.Request
import BuildPlan.Proofs.Build.Success
import BuildPlan.Proofs.Json.RoundTrip
import BuildPlan.Proofs.Numeral.Integer
import BuildPlan.Proofs.Flag.RoundTrip
import BuildPlan.Proofs.State.InStep
import BuildPlan.Proofs.Flag.Growth
import BuildPlan.Proofs.Flag.Reading
import BuildPlan.Proofs.Flag.Resolution
import BuildPlan.Proofs.Flag.Replay
import BuildPlan.Proofs.Package.InStep
import BuildPlan.Proofs.Flag.Frozen
import BuildPlan.Proofs.Flag.Lifecycle
import BuildPlan.Proofs.Path.Lexical
import BuildPlan.Proofs.Path.Layout
import BuildPlan.Proofs.Store.Growth
import BuildPlan.Proofs.Store.Operations
import BuildPlan.Proofs.Store.Payloads
import BuildPlan.Proofs.Flag.Memory
import BuildPlan.Proofs.Build.InStep
import BuildPlan.Proofs.Generate.Stages
import BuildPlan.Proofs.Generate.Rerun
import BuildPlan.Proofs.Flag.Preparation
import BuildPlan.Proofs.Flag.Settling
import BuildPlan.Proofs.Flag.HashInput
import BuildPlan.Proofs.Path.Aliasing
import BuildPlan.Proofs.Build.Events
import BuildPlan.Proofs.Build.Processing
import BuildPlan.Proofs.Build.TargetOrder
import BuildPlan.Proofs.Build.TargetRules
import BuildPlan.Proofs.Ninja.TopLevel
import BuildPlan.Proofs.Generate.Selection
import BuildPlan.Proofs.Ninja.OutputNames
import BuildPlan.Proofs.Shell.RoundTrip
import BuildPlan.Proofs.Build.PayloadFiles
import BuildPlan.Proofs.Build.PayloadModes
import BuildPlan.Proofs.Build.Refusal
import BuildPlan.Proofs.Ninja.BuildLine
import BuildPlan.Proofs.Build.RuleHistory
import BuildPlan.Proofs.Target.Closure
import BuildPlan.Proofs.Ninja.Expansion
import BuildPlan.Proofs.Build.PayloadCommands
import BuildPlan.Proofs.Build.Backing
import BuildPlan.Proofs.Build.CompilerCommands
import BuildPlan.Proofs.Ninja.PathReading
import BuildPlan.Proofs.Build.Following
import BuildPlan.Proofs.Build.Traces
import BuildPlan.Proofs.Flag.History
import BuildPlan.Proofs.Flag.Persistence
import BuildPlan.Proofs.Store.Directories
import BuildPlan.Proofs.Flag.Cached
import BuildPlan.Proofs.Flag.FailedLock
import BuildPlan.Build.Generator
import BuildPlan.Proofs.Store.Replacement
import BuildPlan.Proofs.Generate.Changes
import BuildPlan.Proofs.Json.Documents
import BuildPlan.Proofs.CommandLine.Reporting
import BuildPlan.Proofs.Ninja.EchoCommands
import BuildPlan.Proofs.Ninja.LogicalLines
import BuildPlan.Proofs.Ninja.FileLines
import BuildPlan.Proofs.Package.Discovery
import BuildPlan.Proofs.Package.Targets
import BuildPlan.Proofs.Document.Format
import BuildPlan.Proofs.Path.Derivation
