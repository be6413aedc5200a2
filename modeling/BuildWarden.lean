import BuildWarden.Build.Choice
import BuildWarden.Build.Compiler
import BuildWarden.Build.Context
import BuildWarden.Build.Jobs
import BuildWarden.Build.Lines
import BuildWarden.Build.ModuleSet
import BuildWarden.Build.Pipeline
import BuildWarden.Build.Record
import BuildWarden.Command.BuildArguments
import BuildWarden.Command.Grammar
import BuildWarden.Command.Invocation
import BuildWarden.Command.Program
import BuildWarden.Command.Session
import BuildWarden.Console.Message
import BuildWarden.Console.Scan
import BuildWarden.Console.Style
import BuildWarden.Fault
import BuildWarden.Guideline.Check
import BuildWarden.Guideline.Format
import BuildWarden.Guideline.GraphFile
import BuildWarden.Guideline.License
import BuildWarden.Guideline.ModuleGraph
import BuildWarden.Guideline.Pairing
import BuildWarden.Guideline.Programs
import BuildWarden.Guideline.Report
import BuildWarden.Guideline.Template
import BuildWarden.Json.Document
import BuildWarden.Main
import BuildWarden.Number.Binary64
import BuildWarden.Path
import BuildWarden.Pattern.Basic
import BuildWarden.Pattern.Reader
import BuildWarden.Proofs.Build.Acceptance
import BuildWarden.Proofs.Build.ConfigureFragments
import BuildWarden.Proofs.Build.Determination
import BuildWarden.Proofs.Build.Digits
import BuildWarden.Proofs.Build.DryRun
import BuildWarden.Proofs.Build.HandOver
import BuildWarden.Proofs.Build.JobCount
import BuildWarden.Proofs.Build.ModuleSet
import BuildWarden.Proofs.Build.ModuleUnion
import BuildWarden.Proofs.Build.Pipeline
import BuildWarden.Proofs.Build.Plan
import BuildWarden.Proofs.Build.PythonSwitch
import BuildWarden.Proofs.Build.SourceArgument
import BuildWarden.Proofs.Build.Validation
import BuildWarden.Proofs.Command.Masking
import BuildWarden.Proofs.Command.Preview
import BuildWarden.Proofs.Command.Spelling
import BuildWarden.Proofs.Command.Written
import BuildWarden.Proofs.Console.Highlight
import BuildWarden.Proofs.Console.Verbosity
import BuildWarden.Proofs.Graph.Declarations
import BuildWarden.Proofs.Graph.Reachability
import BuildWarden.Proofs.Graph.Reduction
import BuildWarden.Proofs.Graph.Removal
import BuildWarden.Proofs.Graph.Report
import BuildWarden.Proofs.Graph.Search
import BuildWarden.Proofs.Guideline.Agreement
import BuildWarden.Proofs.Guideline.Amendment
import BuildWarden.Proofs.Guideline.Confinement
import BuildWarden.Proofs.Guideline.Convergence
import BuildWarden.Proofs.Guideline.Examination
import BuildWarden.Proofs.Guideline.Exceptions
import BuildWarden.Proofs.Guideline.Failure
import BuildWarden.Proofs.Guideline.Forecast
import BuildWarden.Proofs.Guideline.Format
import BuildWarden.Proofs.Guideline.Frame
import BuildWarden.Proofs.Guideline.Handling
import BuildWarden.Proofs.Guideline.License
import BuildWarden.Proofs.Guideline.LicenseCount
import BuildWarden.Proofs.Guideline.LicenseFragments
import BuildWarden.Proofs.Guideline.LicenseMarker
import BuildWarden.Proofs.Guideline.LicenseRewrite
import BuildWarden.Proofs.Guideline.Order
import BuildWarden.Proofs.Guideline.Pairing
import BuildWarden.Proofs.Guideline.Reformatting
import BuildWarden.Proofs.Guideline.Run
import BuildWarden.Proofs.Guideline.Sources
import BuildWarden.Proofs.Guideline.Treatment
import BuildWarden.Proofs.Guideline.Units
import BuildWarden.Proofs.Guideline.Verbosity
import BuildWarden.Proofs.Guideline.Visit
import BuildWarden.Proofs.Pattern
import BuildWarden.Proofs.Pattern.Suffix
import BuildWarden.Proofs.Settings.Builtin
import BuildWarden.Proofs.Settings.JobsVariable
import BuildWarden.Proofs.Settings.Layers
import BuildWarden.Proofs.Settings.Leaves
import BuildWarden.Proofs.Settings.ProjectFile
import BuildWarden.Proofs.Settings.Section
import BuildWarden.Proofs.Settings.Table
import BuildWarden.Proofs.Shell.Reading
import BuildWarden.Proofs.Shell.Splitting
import BuildWarden.Proofs.Text.Blank
import BuildWarden.Proofs.Text.ByteOrder
import BuildWarden.Proofs.Text.Fragments
import BuildWarden.Proofs.Text.Lenient
import BuildWarden.Proofs.Text.LetterCase
import BuildWarden.Proofs.Text.Parts
import BuildWarden.Proofs.Text.Search
import BuildWarden.Proofs.Text.Slice
import BuildWarden.Proofs.Text.UpperCase
import BuildWarden.Proofs.Text.Utf8
import BuildWarden.Proofs.Tree.Alteration
import BuildWarden.Proofs.Tree.Components
import BuildWarden.Proofs.Tree.Contents
import BuildWarden.Proofs.Tree.DepthFirst
import BuildWarden.Proofs.Tree.Display
import BuildWarden.Proofs.Tree.Enumerate
import BuildWarden.Proofs.Tree.Follow
import BuildWarden.Proofs.Tree.Formed
import BuildWarden.Proofs.Tree.Linked
import BuildWarden.Proofs.Tree.Listed
import BuildWarden.Proofs.Tree.Plain
import BuildWarden.Proofs.Tree.Relative
import BuildWarden.Proofs.Tree.Rewriting
import BuildWarden.Proofs.Tree.Steps
import BuildWarden.Proofs.Tree.Target
import BuildWarden.Proofs.Tree.Walk
import BuildWarden.Proofs.World
import BuildWarden.Settings.Configuration
import BuildWarden.Settings.Environment
import BuildWarden.Settings.Host
import BuildWarden.Settings.Section
import BuildWarden.Settings.Value
import BuildWarden.Shell.Builtins
import BuildWarden.Shell.Edit
import BuildWarden.Shell.Expansion
import BuildWarden.Shell.Expression
import BuildWarden.Shell.Formula
import BuildWarden.Shell.Host
import BuildWarden.Shell.Run
import BuildWarden.Shell.Script
import BuildWarden.Shell.State
import BuildWarden.Shell.Utilities
import BuildWarden.Shell.Word
import BuildWarden.Text.Blank
import BuildWarden.Text.Lines
import BuildWarden.Text.Quoted
import BuildWarden.Text.Search
import BuildWarden.Text.Slice
import BuildWarden.Text.UpperCase
import BuildWarden.Text.Utf8
import BuildWarden.Toml.Document
import BuildWarden.Toml.Number
import BuildWarden.Toml.Reader
import BuildWarden.Toml.Text
import BuildWarden.Tree.Basic
import BuildWarden.Tree.Changes
import BuildWarden.Tree.Disk
import BuildWarden.Tree.Walk
import BuildWarden.World
