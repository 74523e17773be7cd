import CapabilityPipeline.Command.Driver
import CapabilityPipeline.Command.Line
import CapabilityPipeline.Command.Outcome
import CapabilityPipeline.Command.Process
import CapabilityPipeline.Console.Arguments
import CapabilityPipeline.Console.Invocation
import CapabilityPipeline.Console.Session
import CapabilityPipeline.Console.Tasks
import CapabilityPipeline.Execution.Context
import CapabilityPipeline.Execution.Driver
import CapabilityPipeline.Execution.Engine
import CapabilityPipeline.Execution.Envelope
import CapabilityPipeline.Execution.Log
import CapabilityPipeline.Execution.LogFile
import CapabilityPipeline.Execution.RunId
import CapabilityPipeline.Execution.Script
import CapabilityPipeline.Execution.Settings
import CapabilityPipeline.Execution.SettingsFile
import CapabilityPipeline.Execution.Trace
import CapabilityPipeline.Files.Path
import CapabilityPipeline.Files.Tree
import CapabilityPipeline.Json.Decimal
import CapabilityPipeline.Json.Decode
import CapabilityPipeline.Json.Diagnosis
import CapabilityPipeline.Json.Encode
import CapabilityPipeline.Json.Fault
import CapabilityPipeline.Json.Literal
import CapabilityPipeline.Json.Printer
import CapabilityPipeline.Json.Reader
import CapabilityPipeline.Json.Shape
import CapabilityPipeline.Json.Tree
import CapabilityPipeline.Json.Value
import CapabilityPipeline.Main
import CapabilityPipeline.Names.Map
import CapabilityPipeline.Numbers.Word
import CapabilityPipeline.Program.Basic
import CapabilityPipeline.Program.Parser
import CapabilityPipeline.Program.Printer
import CapabilityPipeline.Program.Substitution
import CapabilityPipeline.Program.SyntaxError
import CapabilityPipeline.Program.Token
import CapabilityPipeline.Proofs.Command.Verdict
import CapabilityPipeline.Proofs.Console.DryRun
import CapabilityPipeline.Proofs.Execution.Account
import CapabilityPipeline.Proofs.Execution.Advance
import CapabilityPipeline.Proofs.Execution.Assigned
import CapabilityPipeline.Proofs.Execution.Branches
import CapabilityPipeline.Proofs.Execution.Control
import CapabilityPipeline.Proofs.Execution.Counting
import CapabilityPipeline.Proofs.Execution.Descent
import CapabilityPipeline.Proofs.Execution.Dispatch
import CapabilityPipeline.Proofs.Execution.Eager
import CapabilityPipeline.Proofs.Execution.Explained
import CapabilityPipeline.Proofs.Execution.Failure
import CapabilityPipeline.Proofs.Execution.Laziness
import CapabilityPipeline.Proofs.Execution.Move
import CapabilityPipeline.Proofs.Execution.Nesting
import CapabilityPipeline.Proofs.Execution.Permitted
import CapabilityPipeline.Proofs.Execution.Progress
import CapabilityPipeline.Proofs.Execution.Reached
import CapabilityPipeline.Proofs.Execution.Runs
import CapabilityPipeline.Proofs.Execution.Sound
import CapabilityPipeline.Proofs.Execution.Stretches
import CapabilityPipeline.Proofs.Execution.Telling
import CapabilityPipeline.Proofs.Execution.Trace
import CapabilityPipeline.Proofs.Execution.Twins
import CapabilityPipeline.Proofs.Files.Directories
import CapabilityPipeline.Proofs.Files.Path
import CapabilityPipeline.Proofs.Files.Tree
import CapabilityPipeline.Proofs.Files.WellFormed
import CapabilityPipeline.Proofs.Json.Doubles
import CapabilityPipeline.Proofs.Json.Extent
import CapabilityPipeline.Proofs.Json.Literals
import CapabilityPipeline.Proofs.Json.Pretty
import CapabilityPipeline.Proofs.Json.Records
import CapabilityPipeline.Proofs.Json.RoundTrip
import CapabilityPipeline.Proofs.Json.Rounding
import CapabilityPipeline.Proofs.Json.Scaling
import CapabilityPipeline.Proofs.Json.Spelling
import CapabilityPipeline.Proofs.Names.Lookup
import CapabilityPipeline.Proofs.Program.Accepted
import CapabilityPipeline.Proofs.Program.Composition
import CapabilityPipeline.Proofs.Program.Concatenation
import CapabilityPipeline.Proofs.Program.FirstError
import CapabilityPipeline.Proofs.Program.Layout
import CapabilityPipeline.Proofs.Program.RoundTrip
import CapabilityPipeline.Proofs.Program.StepText
import CapabilityPipeline.Proofs.Program.Substitution
import CapabilityPipeline.Proofs.Program.Unclosed
import CapabilityPipeline.Proofs.Program.WellFormed
import CapabilityPipeline.Proofs.Registry.Atomicity
import CapabilityPipeline.Proofs.Registry.Backing
import CapabilityPipeline.Proofs.Registry.Backups
import CapabilityPipeline.Proofs.Registry.Change
import CapabilityPipeline.Proofs.Registry.Commutation
import CapabilityPipeline.Proofs.Registry.Consistency
import CapabilityPipeline.Proofs.Registry.Discovery
import CapabilityPipeline.Proofs.Registry.Documents
import CapabilityPipeline.Proofs.Registry.Isolation
import CapabilityPipeline.Proofs.Registry.Naming
import CapabilityPipeline.Proofs.Registry.Neighbours
import CapabilityPipeline.Proofs.Registry.Overlap
import CapabilityPipeline.Proofs.Registry.Ranking
import CapabilityPipeline.Proofs.Registry.Reinstallation
import CapabilityPipeline.Proofs.Registry.Repetition
import CapabilityPipeline.Proofs.Registry.Reports
import CapabilityPipeline.Proofs.Registry.Runs
import CapabilityPipeline.Proofs.Registry.Saving
import CapabilityPipeline.Proofs.Registry.Standing
import CapabilityPipeline.Proofs.Registry.Tables
import CapabilityPipeline.Proofs.Registry.Totals
import CapabilityPipeline.Proofs.Registry.Unobstructed
import CapabilityPipeline.Proofs.Registry.Widening
import CapabilityPipeline.Proofs.Results
import CapabilityPipeline.Proofs.Source.Balanced
import CapabilityPipeline.Proofs.Source.Comments
import CapabilityPipeline.Proofs.Source.Concatenation
import CapabilityPipeline.Proofs.Source.FirstLines
import CapabilityPipeline.Proofs.Source.Joining
import CapabilityPipeline.Proofs.Source.Matching
import CapabilityPipeline.Proofs.Source.Positions
import CapabilityPipeline.Proofs.Source.Splitting
import CapabilityPipeline.Proofs.Text.LowerCase
import CapabilityPipeline.Proofs.Text.Trim
import CapabilityPipeline.Registry.Discovery
import CapabilityPipeline.Registry.Installer
import CapabilityPipeline.Registry.Keyword
import CapabilityPipeline.Registry.Manifest
import CapabilityPipeline.Registry.Node
import CapabilityPipeline.Registry.Ownership
import CapabilityPipeline.Registry.Snapshot
import CapabilityPipeline.Registry.Store
import CapabilityPipeline.Shell.Arithmetic
import CapabilityPipeline.Shell.Builtin
import CapabilityPipeline.Shell.Condition
import CapabilityPipeline.Shell.Execution
import CapabilityPipeline.Shell.Expansion
import CapabilityPipeline.Shell.Machine
import CapabilityPipeline.Shell.Pattern
import CapabilityPipeline.Shell.Printing
import CapabilityPipeline.Shell.Process
import CapabilityPipeline.Shell.Reader
import CapabilityPipeline.Shell.Script
import CapabilityPipeline.Shell.Token
import CapabilityPipeline.Shell.Tool
import CapabilityPipeline.Source.Bracket
import CapabilityPipeline.Source.Comment
import CapabilityPipeline.Source.Quote
import CapabilityPipeline.Source.Statement
import CapabilityPipeline.Text.Alphanumeric
import CapabilityPipeline.Text.Blank
import CapabilityPipeline.Text.CaseContext
import CapabilityPipeline.Text.LowerCase
import CapabilityPipeline.Text.Octets
import CapabilityPipeline.Text.Quoted
import CapabilityPipeline.Text.Ranges
import CapabilityPipeline.Text.Symbol
