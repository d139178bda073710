import BuildPlanner.CommandLine
import BuildPlanner.CommandLine.Options
import BuildPlanner.Configuration
import BuildPlanner.Decimal
import BuildPlanner.Define
import BuildPlanner.Deployment
import BuildPlanner.Executor
import BuildPlanner.Failure
import BuildPlanner.Files
import BuildPlanner.Generation
import BuildPlanner.Glob.Matching
import BuildPlanner.Glob.Pattern
import BuildPlanner.Glob.Search
import BuildPlanner.Graph.Basic
import BuildPlanner.Graph.CompileCommands
import BuildPlanner.Graph.Emission
import BuildPlanner.Host
import BuildPlanner.Json
import BuildPlanner.Main
import BuildPlanner.Manifest.Decode
import BuildPlanner.Manifest.Definition
import BuildPlanner.ModelError
import BuildPlanner.Ninja.Syntax
import BuildPlanner.Path.Basic
import BuildPlanner.Path.Order
import BuildPlanner.Path.Relative
import BuildPlanner.Pipeline
import BuildPlanner.PipelineFault
import BuildPlanner.Platform
import BuildPlanner.Process.Command
import BuildPlanner.Process.Program
import BuildPlanner.Process.Run
import BuildPlanner.Project
import BuildPlanner.Proofs.Emission
import BuildPlanner.References
import BuildPlanner.References.Reachability
import BuildPlanner.Replica
import BuildPlanner.Report
import BuildPlanner.Session
import BuildPlanner.Settings
import BuildPlanner.Settings.Layers
import BuildPlanner.Shell.Arithmetic
import BuildPlanner.Shell.Builtin
import BuildPlanner.Shell.Call
import BuildPlanner.Shell.Enclosure
import BuildPlanner.Shell.Expansion
import BuildPlanner.Shell.Fractional
import BuildPlanner.Shell.Options
import BuildPlanner.Shell.Pattern
import BuildPlanner.Shell.Printing
import BuildPlanner.Shell.Redirection
import BuildPlanner.Shell.Run
import BuildPlanner.Shell.Script
import BuildPlanner.Shell.Signal
import BuildPlanner.Shell.Source
import BuildPlanner.Shell.State
import BuildPlanner.Shell.Syntax
import BuildPlanner.Shell.Test
import BuildPlanner.Shell.Token
import BuildPlanner.Shell.Word
import BuildPlanner.Statement
import BuildPlanner.Text.Argument
import BuildPlanner.Text.Blank
import BuildPlanner.Text.Bytes
import BuildPlanner.Text.CharacterRange
import BuildPlanner.Text.Display
import BuildPlanner.Text.GraphemeExtend
import BuildPlanner.Text.Lines
import BuildPlanner.Text.Printable
import BuildPlanner.Toml.Document
import BuildPlanner.Toml.Expression
import BuildPlanner.Toml.Moment
import BuildPlanner.Toml.Number
import BuildPlanner.Toml.Quoted
import BuildPlanner.Toml.Schema
import BuildPlanner.Toml.SchemaFault
import BuildPlanner.Toml.Span
import BuildPlanner.Toml.Table
import BuildPlanner.Toml.Value
import BuildPlanner.Toolchain
import BuildPlanner.Toolchain.Gcc
import BuildPlanner.Toolchain.Msvc
import BuildPlanner.Toolchain.Task
import BuildPlanner.Tree.Basic
import BuildPlanner.Tree.Content
import BuildPlanner.Tree.Fault
import BuildPlanner.Umbrella
import BuildPlanner.Workspace
import BuildPlanner.Proofs.Reachability
import BuildPlanner.Proofs.References
import BuildPlanner.Proofs.Ninja.Reader
import BuildPlanner.Proofs.Ninja.Written
import BuildPlanner.Proofs.Template
import BuildPlanner.Proofs.Bindings
import BuildPlanner.Proofs.Commands
import BuildPlanner.Proofs.Description
import BuildPlanner.Proofs.CompileCommands
import BuildPlanner.Proofs.Reordering
import BuildPlanner.Proofs.Entries
import BuildPlanner.Proofs.Production
import BuildPlanner.Proofs.Outputs
import BuildPlanner.Proofs.Arguments
import BuildPlanner.Proofs.ToolArguments
import BuildPlanner.Proofs.CommandLines
import BuildPlanner.Proofs.Faults
import BuildPlanner.Proofs.Resolution
import BuildPlanner.Proofs.Composition
import BuildPlanner.Proofs.Activities
import BuildPlanner.Proofs.Descent
import BuildPlanner.Proofs.Directories
import BuildPlanner.Proofs.Runs
import BuildPlanner.Proofs.Listings
import BuildPlanner.Proofs.Placing
import BuildPlanner.Proofs.Copying
import BuildPlanner.Proofs.Clearing
import BuildPlanner.Proofs.Replicas
import BuildPlanner.Proofs.Staleness
import BuildPlanner.Proofs.Edits
import BuildPlanner.Proofs.Umbrellas
import BuildPlanner.Proofs.Planning
import BuildPlanner.Proofs.Frames
import BuildPlanner.Proofs.Patterns
import BuildPlanner.Proofs.Discovery
import BuildPlanner.Proofs.Rewriting
import BuildPlanner.Proofs.Regeneration
import BuildPlanner.Proofs.Layout
import BuildPlanner.Proofs.DataDirectories
import BuildPlanner.Proofs.LinkPlans
import BuildPlanner.Proofs.Reaggregation
import BuildPlanner.Proofs.Verdicts
import BuildPlanner.Proofs.SortedFiles
import BuildPlanner.Proofs.Quoting
import BuildPlanner.Proofs.Ninja.PathLists
import BuildPlanner.Proofs.Additions
import BuildPlanner.Proofs.Precedence
import BuildPlanner.Proofs.CopyCodes
import BuildPlanner.Proofs.Replacement
import BuildPlanner.Proofs.IncludeLines
import BuildPlanner.Proofs.Defines
import BuildPlanner.Proofs.WorkingDirectories
import BuildPlanner.Proofs.Stems
