import TaskMill.Command.Answer
import TaskMill.Command.Execute
import TaskMill.Command.Output
import TaskMill.CommandLine.Basic
import TaskMill.CommandLine.Parse
import TaskMill.Decimal.Binary
import TaskMill.Event.Basic
import TaskMill.Event.Line
import TaskMill.Event.Record
import TaskMill.Event.Signal
import TaskMill.Event.Timestamp
import TaskMill.Event.Wire
import TaskMill.Failure
import TaskMill.Fault
import TaskMill.Files.Basic
import TaskMill.Files.Change
import TaskMill.Freshness
import TaskMill.Graph.Basic
import TaskMill.Graph.Closure
import TaskMill.Graph.Indexed
import TaskMill.Graph.Order
import TaskMill.Graph.Search
import TaskMill.Host
import TaskMill.Json.Basic
import TaskMill.Json.Reader
import TaskMill.Listing
import TaskMill.LogLevel
import TaskMill.Main
import TaskMill.NameTable
import TaskMill.Path
import TaskMill.Project
import TaskMill.Proofs.Arguments
import TaskMill.Proofs.Cancellation
import TaskMill.Proofs.Capture
import TaskMill.Proofs.Check
import TaskMill.Proofs.Closure
import TaskMill.Proofs.Columns
import TaskMill.Proofs.Convergence
import TaskMill.Proofs.Course
import TaskMill.Proofs.Creation
import TaskMill.Proofs.Cycles
import TaskMill.Proofs.Decoding
import TaskMill.Proofs.Delivery
import TaskMill.Proofs.Dubbing
import TaskMill.Proofs.Executed
import TaskMill.Proofs.ExitCode
import TaskMill.Proofs.FailFast
import TaskMill.Proofs.Fallible
import TaskMill.Proofs.Faults
import TaskMill.Proofs.Founded
import TaskMill.Proofs.Freshness
import TaskMill.Proofs.Growth
import TaskMill.Proofs.Indexing
import TaskMill.Proofs.JsonLayout
import TaskMill.Proofs.JsonOutput
import TaskMill.Proofs.JsonScalar
import TaskMill.Proofs.JsonText
import TaskMill.Proofs.Ledger
import TaskMill.Proofs.Limits
import TaskMill.Proofs.Lines
import TaskMill.Proofs.Linking
import TaskMill.Proofs.Locality
import TaskMill.Proofs.Lookups
import TaskMill.Proofs.Modes
import TaskMill.Proofs.Numbering
import TaskMill.Proofs.Ordering
import TaskMill.Proofs.Plan
import TaskMill.Proofs.Preorder
import TaskMill.Proofs.Quoting
import TaskMill.Proofs.Reasons
import TaskMill.Proofs.Recording
import TaskMill.Proofs.Registration
import TaskMill.Proofs.Renumbering
import TaskMill.Proofs.Resumption
import TaskMill.Proofs.Schema
import TaskMill.Proofs.Search
import TaskMill.Proofs.Shapes
import TaskMill.Proofs.Siblings
import TaskMill.Proofs.Snippets
import TaskMill.Proofs.Staleness
import TaskMill.Proofs.Tables
import TaskMill.Proofs.Tidy
import TaskMill.Proofs.Trace
import TaskMill.Proofs.Trimming
import TaskMill.Proofs.Turn
import TaskMill.Proofs.Unfolding
import TaskMill.Proofs.Visiting
import TaskMill.Proofs.Watching
import TaskMill.Registry
import TaskMill.Rehearsal.Bench
import TaskMill.Rehearsal.Machine
import TaskMill.Rehearsal.Script
import TaskMill.Run.Action
import TaskMill.Run.Basic
import TaskMill.Run.Plan
import TaskMill.Survey
import TaskMill.SystemError
import TaskMill.Tail
import TaskMill.Task
import TaskMill.TaskFile.Basic
import TaskMill.TaskFile.Parse
import TaskMill.TaskFile.Schema
import TaskMill.TaskFile.Starter
import TaskMill.Text.Blank
import TaskMill.Text.Digits
import TaskMill.Text.Lines
import TaskMill.Text.Quoted
import TaskMill.Text.Unprintable
import TaskMill.Text.Utf8
import TaskMill.Toml.Basic
import TaskMill.Toml.Document
import TaskMill.Toml.Draft
import TaskMill.Toml.Layout
import TaskMill.Toml.Quotation
import TaskMill.Toml.Scalar
import TaskMill.Toml.Scan
import TaskMill.Toml.Token
import TaskMill.Word
import TaskMill.Workspace
