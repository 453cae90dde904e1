import SplitTest.Allocation
import SplitTest.App
import SplitTest.Assignment.Basic
import SplitTest.Assignment.Service
import SplitTest.Bucket
import SplitTest.Cache
import SplitTest.Digest.Sha256
import SplitTest.Error
import SplitTest.Experiment.Basic
import SplitTest.Experiment.Codec
import SplitTest.Experiment.Repository
import SplitTest.Http.Endpoints
import SplitTest.Http.Query
import SplitTest.Http.Reply
import SplitTest.Http.Route
import SplitTest.Json.Basic
import SplitTest.Json.Document
import SplitTest.Json.Printer
import SplitTest.Json.Token
import SplitTest.Log
import SplitTest.Main
import SplitTest.Number.Binary64
import SplitTest.Number.Nearest
import SplitTest.Number.Notation
import SplitTest.Number.Numeral
import SplitTest.Number.Shortest
import SplitTest.Program
import SplitTest.Proofs.Allocation.Intervals
import SplitTest.Proofs.Allocation.Ramping
import SplitTest.Proofs.Allocation.Shares
import SplitTest.Proofs.Allocation.Walk
import SplitTest.Proofs.Assignment.Codec
import SplitTest.Proofs.Assignment.Deadlines
import SplitTest.Proofs.Assignment.Executions
import SplitTest.Proofs.Assignment.Responses
import SplitTest.Proofs.Assignment.Service
import SplitTest.Proofs.Assignment.Stickiness
import SplitTest.Proofs.Cache.History
import SplitTest.Proofs.Experiment.Addressing
import SplitTest.Proofs.Experiment.Catalogue
import SplitTest.Proofs.Experiment.Codec
import SplitTest.Proofs.Experiment.Documents
import SplitTest.Proofs.Experiment.Entries
import SplitTest.Proofs.Experiment.Interleaving
import SplitTest.Proofs.Experiment.Listing
import SplitTest.Proofs.Experiment.Readability
import SplitTest.Proofs.Experiment.Readings
import SplitTest.Proofs.Experiment.Refinement
import SplitTest.Proofs.Experiment.Seeding
import SplitTest.Proofs.Experiment.Timestamps
import SplitTest.Proofs.Experiment.Undated
import SplitTest.Proofs.Experiment.Writes
import SplitTest.Proofs.Http.Experiments
import SplitTest.Proofs.Json.RoundTrip
import SplitTest.Proofs.Json.Scan
import SplitTest.Proofs.Json.Sizes
import SplitTest.Proofs.Number.Digits
import SplitTest.Proofs.Number.Notation
import SplitTest.Proofs.Number.Rounding
import SplitTest.Proofs.Number.Values
import SplitTest.Proofs.Schema.Reading
import SplitTest.Proofs.Stats.Codec
import SplitTest.Proofs.Stats.Overtaking
import SplitTest.Proofs.Stats.Persistence
import SplitTest.Proofs.Stats.Range
import SplitTest.Proofs.Stats.Reading
import SplitTest.Proofs.Stats.Staleness
import SplitTest.Proofs.Stats.Turns
import SplitTest.Proofs.Store.Clocks
import SplitTest.Proofs.Store.Connection
import SplitTest.Proofs.Store.Environments
import SplitTest.Proofs.Store.Executions
import SplitTest.Proofs.Store.Fields
import SplitTest.Proofs.Store.Healthy
import SplitTest.Proofs.Store.Outages
import SplitTest.Proofs.Store.Questions
import SplitTest.Proofs.Store.Schedules
import SplitTest.Proofs.Store.Threads
import SplitTest.Proofs.Tasks.Basic
import SplitTest.Proofs.Tasks.Effects
import SplitTest.Proofs.Tasks.Isolation
import SplitTest.Proofs.Time.Calendar
import SplitTest.Proofs.Time.RoundTrip
import SplitTest.Proofs.Time.Zones
import SplitTest.Schema.Document
import SplitTest.Schema.Fault
import SplitTest.Schema.Reading
import SplitTest.Schema.Scalar
import SplitTest.Seed
import SplitTest.Settings.Basic
import SplitTest.Settings.Definition
import SplitTest.Settings.Logging
import SplitTest.Settings.Sources
import SplitTest.Stats.Basic
import SplitTest.Stats.Codec
import SplitTest.Stats.Repository
import SplitTest.Stats.Service
import SplitTest.Store.Basic
import SplitTest.Store.Command
import SplitTest.Store.Keys
import SplitTest.Store.Server
import SplitTest.Table
import SplitTest.Text.Blank
import SplitTest.Text.Utf8
import SplitTest.Time.Date
import SplitTest.Time.Reader
import SplitTest.Time.Timestamp
