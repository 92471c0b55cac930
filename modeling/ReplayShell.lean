import ReplayShell.Compilation
import ReplayShell.Console
import ReplayShell.Diagnostic
import ReplayShell.Disk
import ReplayShell.Editor
import ReplayShell.Failure
import ReplayShell.Files.FileError
import ReplayShell.Files.FileSystem
import ReplayShell.Files.Path
import ReplayShell.Input
import ReplayShell.Invocation
import ReplayShell.Locations
import ReplayShell.Main
import ReplayShell.Operator
import ReplayShell.Program.Basic
import ReplayShell.Program.Execution
import ReplayShell.Program.Listing
import ReplayShell.Program.Resolution
import ReplayShell.Settings
import ReplayShell.Shell.Basic
import ReplayShell.Shell.Command
import ReplayShell.Shell.Dispatch
import ReplayShell.Shell.Readiness
import ReplayShell.Shell.Report
import ReplayShell.Shell.Submission
import ReplayShell.Store
import ReplayShell.Syntax.Kind
import ReplayShell.Syntax.Outline
import ReplayShell.Syntax.Parser
import ReplayShell.Syntax.Token
import ReplayShell.Syntax.Tree
import ReplayShell.Terminal.Highlight
import ReplayShell.Terminal.Output
import ReplayShell.Text.Blank
import ReplayShell.Text.Bytes
import ReplayShell.Text.Cluster
import ReplayShell.Text.ClusterClass
import ReplayShell.Text.Letter
import ReplayShell.Text.Lines
import ReplayShell.Text.Printable
import ReplayShell.Text.Quoted
import ReplayShell.Text.Ranges
import ReplayShell.Toml.Basic
import ReplayShell.Toml.Document
import ReplayShell.Toml.Scalar
import ReplayShell.Value
import ReplayShell.Proofs.Fuel
import ReplayShell.Proofs.Places
import ReplayShell.Proofs.RecordNames
import ReplayShell.Proofs.FileChanges
import ReplayShell.Proofs.StoreOrder
import ReplayShell.Proofs.Retelling
import ReplayShell.Proofs.Restart
import ReplayShell.Proofs.Grammar
import ReplayShell.Proofs.Moments
import ReplayShell.Proofs.Soundness
import ReplayShell.Proofs.Binding
import ReplayShell.Proofs.Chains
import ReplayShell.Proofs.Declarations
import ReplayShell.Proofs.Reach
import ReplayShell.Proofs.Links
import ReplayShell.Proofs.Meanings
import ReplayShell.Proofs.Symbols
import ReplayShell.Proofs.LineCuts
import ReplayShell.Proofs.Prefixes
import ReplayShell.Proofs.Readiness
import ReplayShell.Proofs.TokenSpans
import ReplayShell.Proofs.Sessions
import ReplayShell.Proofs.FailurePlaces
import ReplayShell.Proofs.TreeTokens
import ReplayShell.Proofs.Grouping
import ReplayShell.Proofs.Determined
import ReplayShell.Proofs.Unplaced
import ReplayShell.Proofs.Completeness
import ReplayShell.Proofs.Spelling
import ReplayShell.Proofs.Printing
import ReplayShell.Proofs.StoreSight
import ReplayShell.Proofs.Tasks
import ReplayShell.Proofs.AllOrNothing
import ReplayShell.Proofs.InputCuts
import ReplayShell.Proofs.Courses
import ReplayShell.Proofs.Durability
import ReplayShell.Proofs.Permanence
import ReplayShell.Proofs.LatestNames
import ReplayShell.Proofs.ReadOnly
import ReplayShell.Proofs.MadeDirectories
import ReplayShell.Proofs.AppendLog
import ReplayShell.Proofs.Highlighting
import ReplayShell.Proofs.ExactRuns
import ReplayShell.Proofs.Ranges
import ReplayShell.Proofs.Displays
import ReplayShell.Proofs.Chronicle
import ReplayShell.Proofs.Assignment
import ReplayShell.Proofs.FramePlaces
import ReplayShell.Proofs.LocalReads
import ReplayShell.Proofs.Boundaries
import ReplayShell.Proofs.Covering
import ReplayShell.Proofs.Nesting
import ReplayShell.Proofs.Recasting
import ReplayShell.Proofs.RecastRuns
import ReplayShell.Proofs.Hoisting
import ReplayShell.Proofs.Displayed
import ReplayShell.Proofs.DisplayTokens
import ReplayShell.Proofs.ReadBack
import ReplayShell.Proofs.Partition
import ReplayShell.Proofs.SourceLines
import ReplayShell.Proofs.Lookahead
import ReplayShell.Proofs.Branches
import ReplayShell.Proofs.LexicalScope
import ReplayShell.Proofs.LexicalNames
import ReplayShell.Proofs.CommandWords
import ReplayShell.Proofs.InputText
import ReplayShell.Proofs.ReadLoop
import ReplayShell.Proofs.Literals
import ReplayShell.Proofs.TreeParts
import ReplayShell.Proofs.SpanOrder
import ReplayShell.Proofs.ReportPlaces
import ReplayShell.Proofs.Moves
import ReplayShell.Proofs.Progress
import ReplayShell.Proofs.LastToken
