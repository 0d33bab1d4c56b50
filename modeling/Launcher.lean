import Launcher.Cli.Arguments
import Launcher.Cli.Calendar
import Launcher.Cli.Commands
import Launcher.Cli.Grammar
import Launcher.Cli.Similarity
import Launcher.Config.Basic
import Launcher.Config.Directories
import Launcher.Config.Problems
import Launcher.Config.UnknownKeys
import Launcher.Disk
import Launcher.Engine.Dispatch
import Launcher.Engine.Lifecycle
import Launcher.Engine.Plugin
import Launcher.Engine.Scheduler
import Launcher.Engine.State
import Launcher.Error
import Launcher.Generation
import Launcher.History.Entry
import Launcher.History.Options
import Launcher.History.Recency
import Launcher.History.Store
import Launcher.Json.Read
import Launcher.Json.Shape
import Launcher.Json.Stream
import Launcher.Json.Value
import Launcher.Json.Write
import Launcher.Main
import Launcher.Number.Binary64
import Launcher.Number.Decimal
import Launcher.Plugin.Metadata
import Launcher.Plugin.Settings
import Launcher.Plugin.State
import Launcher.Query
import Launcher.Ranking
import Launcher.Registry
import Launcher.Result.Item
import Launcher.Result.Ranked
import Launcher.Routing
import Launcher.Session.Documents
import Launcher.Session.Engine
import Launcher.Session.Generations
import Launcher.Session.History
import Launcher.Session.Ranking
import Launcher.Session.Registry
import Launcher.Session.Reply
import Launcher.Session.Scratch
import Launcher.Text.Blank
import Launcher.Text.Quoted
import Launcher.Update
import Launcher.Warning
import Launcher.Proofs.Text.Lines
import Launcher.Proofs.Json.Reading
import Launcher.Proofs.Json.Written
import Launcher.Proofs.Json.Canonical
import Launcher.Proofs.Json.Checked
import Launcher.Proofs.Disk.Frame
import Launcher.Proofs.History.Journal
import Launcher.Proofs.Json.Filled
import Launcher.Proofs.Json.Numerals
import Launcher.Proofs.Json.Legible
import Launcher.Proofs.Json.Pretty
import Launcher.Proofs.Wire.Documents
import Launcher.Proofs.Wire.RoundTrip
import Launcher.Proofs.History.Replay
import Launcher.Proofs.History.Agreement
import Launcher.Proofs.History.Boost
import Launcher.Proofs.Engine.Frame
import Launcher.Proofs.Engine.Delivery
import Launcher.Proofs.Engine.Tasks
import Launcher.Proofs.Engine.Order
import Launcher.Proofs.Engine.Session
import Launcher.Proofs.Query.Routing
import Launcher.Proofs.Ranking.Places
import Launcher.Proofs.Ranking.Selection
import Launcher.Proofs.Ranking.Order
import Launcher.Proofs.Engine.Aside
import Launcher.Proofs.Engine.Collect
import Launcher.Proofs.Registry.Invariant
import Launcher.Proofs.Query.Accessibility
import Launcher.Proofs.Registry.Settings
import Launcher.Proofs.History.Capacity
import Launcher.Proofs.Number.Rounding
import Launcher.Proofs.History.Compaction
import Launcher.Proofs.Config.IgnoredKeys
import Launcher.Proofs.Query.Preview
import Launcher.Proofs.Query.Decomposition
import Launcher.Proofs.Generation.Threads
import Launcher.Proofs.Engine.Jobs
import Launcher.Proofs.Engine.Merged
import Launcher.Proofs.Engine.Gates
import Launcher.Proofs.Engine.Exclusion
import Launcher.Proofs.Engine.Steps
import Launcher.Proofs.Engine.Serialized
import Launcher.Proofs.Engine.Calls
import Launcher.Proofs.Engine.Received
import Launcher.Proofs.Engine.Parallel
import Launcher.Proofs.Engine.Snapshots
