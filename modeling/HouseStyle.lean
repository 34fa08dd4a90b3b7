import HouseStyle.Change
import HouseStyle.Change.Form
import HouseStyle.Compliance.Check
import HouseStyle.Compliance.Exception
import HouseStyle.Compliance.Fix
import HouseStyle.Compliance.Report
import HouseStyle.Compliance.Severity
import HouseStyle.Concept
import HouseStyle.Config.Layers
import HouseStyle.Config.Report
import HouseStyle.Config.Settings
import HouseStyle.Config.Toml
import HouseStyle.Decimal.Fixed
import HouseStyle.Decimal.Parts
import HouseStyle.Decimal.Read
import HouseStyle.Decimal.Shortest
import HouseStyle.Digest.Xxh3
import HouseStyle.Error.Operation
import HouseStyle.Error.Storage
import HouseStyle.Event
import HouseStyle.Extraction.Form
import HouseStyle.Extraction.Lexical
import HouseStyle.Extraction.Observation
import HouseStyle.Extraction.Shape
import HouseStyle.Files
import HouseStyle.Json.Basic
import HouseStyle.Json.Decode
import HouseStyle.Json.Lenient
import HouseStyle.Json.Lookup
import HouseStyle.Json.Reader
import HouseStyle.Keyed
import HouseStyle.Language
import HouseStyle.Learning.Coalesce
import HouseStyle.Learning.ConceptDiff
import HouseStyle.Learning.Delta
import HouseStyle.Learning.Import
import HouseStyle.Learning.Learner
import HouseStyle.Learning.Merge
import HouseStyle.Learning.Mode
import HouseStyle.Learning.Queue
import HouseStyle.Learning.Replay
import HouseStyle.Learning.Steps
import HouseStyle.Learning.Worker
import HouseStyle.Naming.Convert
import HouseStyle.Naming.Style
import HouseStyle.Naming.Words
import HouseStyle.Path
import HouseStyle.Pattern.Basic
import HouseStyle.Pattern.Confidence
import HouseStyle.Pattern.Content
import HouseStyle.Pattern.Identity
import HouseStyle.Portfolio.Console
import HouseStyle.Portfolio.Occurrence
import HouseStyle.Portfolio.Ranking
import HouseStyle.Portfolio.Refresh
import HouseStyle.Portfolio.Register
import HouseStyle.Portfolio.Rows
import HouseStyle.Portfolio.Store
import HouseStyle.Portfolio.Sync
import HouseStyle.Portfolio.View
import HouseStyle.Proofs.Compliance.Project
import HouseStyle.Proofs.Compliance.Conflicts
import HouseStyle.Proofs.Compliance.Exceptions
import HouseStyle.Proofs.Decimal.Order
import HouseStyle.Proofs.Extraction.Contents
import HouseStyle.Proofs.Json.RoundTrip
import HouseStyle.Proofs.Json.Text
import HouseStyle.Proofs.Learning.Accounts
import HouseStyle.Proofs.Learning.Batch
import HouseStyle.Proofs.Learning.BatchLimit
import HouseStyle.Proofs.Learning.Calls
import HouseStyle.Proofs.Learning.FileSteps
import HouseStyle.Proofs.Learning.Handover
import HouseStyle.Proofs.Learning.Incremental
import HouseStyle.Proofs.Learning.Interleaving
import HouseStyle.Proofs.Learning.Modes
import HouseStyle.Proofs.Learning.Observed
import HouseStyle.Proofs.Learning.Plan
import HouseStyle.Proofs.Learning.PatternWrites
import HouseStyle.Proofs.Learning.Queue
import HouseStyle.Proofs.Learning.QueuedPaths
import HouseStyle.Proofs.Learning.Renames
import HouseStyle.Proofs.Learning.Replay
import HouseStyle.Proofs.Learning.Spellings
import HouseStyle.Proofs.Learning.Trees
import HouseStyle.Proofs.Learning.Versions
import HouseStyle.Proofs.Learning.View
import HouseStyle.Proofs.Path.Normal
import HouseStyle.Proofs.Pattern.Form
import HouseStyle.Proofs.Pattern.Payload
import HouseStyle.Proofs.Portfolio.Contests
import HouseStyle.Proofs.Portfolio.Mirror
import HouseStyle.Proofs.Portfolio.Races
import HouseStyle.Proofs.Portfolio.Rollback
import HouseStyle.Proofs.Portfolio.Runs
import HouseStyle.Proofs.Portfolio.Sync
import HouseStyle.Proofs.Portfolio.Writes
import HouseStyle.Proofs.Store.Evidence
import HouseStyle.Proofs.Store.Lookup
import HouseStyle.Proofs.Store.Writes
import HouseStyle.Proofs.Text.Sorted
import HouseStyle.Scope.Basic
import HouseStyle.Scope.Glob
import HouseStyle.Service.Basic
import HouseStyle.Service.Host
import HouseStyle.Service.Operations
import HouseStyle.Service.Request
import HouseStyle.Service.Scheduler
import HouseStyle.Store.Column
import HouseStyle.Store.Console
import HouseStyle.Store.Fault
import HouseStyle.Store.PatternConsole
import HouseStyle.Store.PatternForm
import HouseStyle.Store.PatternStore
import HouseStyle.Store.RowNumbers
import HouseStyle.Store.Rows
import HouseStyle.Text.Blank
import HouseStyle.Text.CaseMap
import HouseStyle.Text.Letter
import HouseStyle.Text.Lines
import HouseStyle.Text.Sorted
import HouseStyle.Word
import HouseStyle.Proofs.Learning.Versions
import HouseStyle.Proofs.Learning.Queue
import HouseStyle.Proofs.Learning.Renames
import HouseStyle.Proofs.Portfolio.Aggregates
import HouseStyle.Proofs.Portfolio.Consistency
import HouseStyle.Proofs.Portfolio.Convergence
import HouseStyle.Proofs.Portfolio.Replacement
import HouseStyle.Proofs.Decimal.Rounding
import HouseStyle.Proofs.Portfolio.Consensus
import HouseStyle.Proofs.Learning.Exclusive
import HouseStyle.Proofs.Learning.Pool
import HouseStyle.Proofs.Learning.Priority
import HouseStyle.Proofs.Learning.Tickets
import HouseStyle.Proofs.Learning.Waiting
import HouseStyle.Proofs.Portfolio.Registrations
import HouseStyle.Proofs.Service.Beside
import HouseStyle.Proofs.Service.Closing
import HouseStyle.Proofs.Portfolio.Lifecycle
import HouseStyle.Proofs.Learning.Decay
import HouseStyle.Proofs.Learning.FileRows
import HouseStyle.Proofs.Learning.Tracking
import HouseStyle.Proofs.Learning.Repetition
import HouseStyle.Proofs.Learning.Draining
import HouseStyle.Proofs.Learning.Contexts
import HouseStyle.Proofs.Learning.Seeds
import HouseStyle.Proofs.Compliance.Applicability
import HouseStyle.Proofs.Naming.Styles
import HouseStyle.Proofs.Pattern.Stored
import HouseStyle.Proofs.Portfolio.Queries
import HouseStyle.Proofs.Config.Given
import HouseStyle.Proofs.Learning.ConceptCounts
import HouseStyle.Proofs.Path.Containment
import HouseStyle.Proofs.Portfolio.WeightedMean
import HouseStyle.Proofs.Config.Precedence
