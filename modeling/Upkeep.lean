import Upkeep.Client.Script
import Upkeep.Config.Script
import Upkeep.Config.TargetStore
import Upkeep.Failure.Reply
import Upkeep.Log.Logger
import Upkeep.Log.LogStore
import Upkeep.Metrics.Sink
import Upkeep.Task.Awaiting
import Upkeep.Task.Detached
import Upkeep.Task.Group
import Upkeep.Task.Unwinding
import Upkeep.Proofs.Client.History
import Upkeep.Proofs.Client.Conservation
import Upkeep.Proofs.Client.Drain
import Upkeep.Proofs.Client.Story
import Upkeep.Proofs.Client.Sequential
import Upkeep.Proofs.Client.Grace
import Upkeep.Proofs.Config.Loops
import Upkeep.Proofs.Config.Feed
import Upkeep.Proofs.Config.Follow
import Upkeep.Proofs.Client.Pending
import Upkeep.Proofs.Client.Destination
import Upkeep.Proofs.Metrics.Accounting
import Upkeep.Proofs.Metrics.Aggregate
import Upkeep.Proofs.Metrics.Effect
import Upkeep.Proofs.Metrics.Summary
import Upkeep.Proofs.Metrics.Period
import Upkeep.Proofs.Metrics.Schedule
import Upkeep.Proofs.Text.ByteOrder
import Upkeep.Proofs.Config.Effect
import Upkeep.Proofs.Config.Lifecycle
import Upkeep.Proofs.Config.Restart
import Upkeep.Proofs.Config.Window
import Upkeep.Proofs.Config.Delivery
import Upkeep.Proofs.Config.Watcher
import Upkeep.Proofs.Config.Abreast
import Upkeep.Proofs.Config.Supply
import Upkeep.Proofs.Config.Handover
import Upkeep.Proofs.Config.HotUpdate
import Upkeep.Proofs.Config.News
import Upkeep.Proofs.Config.Cache
import Upkeep.Proofs.Config.Audience
import Upkeep.Proofs.Config.Accounts
import Upkeep.Proofs.Config.Listeners
import Upkeep.Proofs.Client.Closer
import Upkeep.Proofs.Client.Counters
import Upkeep.Proofs.Client.Progress
import Upkeep.Proofs.Client.Refusal
import Upkeep.Proofs.Client.Shown
import Upkeep.Proofs.Client.Settled
import Upkeep.Proofs.Client.Steady
import Upkeep.Proofs.Failure.RoundTrip
import Upkeep.Proofs.Failure.Relay
import Upkeep.Proofs.Failure.Extraction
import Upkeep.Proofs.Task.Waiting
import Upkeep.Proofs.Task.Scopes
import Upkeep.Proofs.Task.Detached
import Upkeep.Proofs.Log.Base
import Upkeep.Proofs.Log.Switching
import Upkeep.Proofs.Metrics.Startup
import Upkeep.Proofs.Decimal.Comparison
import Upkeep.Proofs.Metrics.Bounds
import Upkeep.Proofs.Metrics.Drains
import Upkeep.Proofs.Config.Edits
import Upkeep.Proofs.Log.Levels
