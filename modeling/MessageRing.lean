import MessageRing.Ring.Call
import MessageRing.Ring.Backoff
import MessageRing.Failure
import MessageRing.Header.Json
import MessageRing.Header.Merge
import MessageRing.Message.Builder
import MessageRing.Executor
import MessageRing.Engine.Call
import MessageRing.Engine.Parts
import MessageRing.Main
import MessageRing.Proofs.Ring.Counters
import MessageRing.Proofs.Ring.Stretches
import MessageRing.Proofs.Ring.Fifo
import MessageRing.Proofs.Ring.Windows
import MessageRing.Proofs.Ring.Halt
import MessageRing.Proofs.Ring.Violations
import MessageRing.Proofs.Ring.Custody
import MessageRing.Proofs.Ring.Modes
import MessageRing.Proofs.Worker.Steps
import MessageRing.Proofs.Worker.Story
import MessageRing.Proofs.Worker.Loop
import MessageRing.Proofs.Worker.Audit
import MessageRing.Proofs.Worker.Diary
import MessageRing.Proofs.Worker.Contract
import MessageRing.Proofs.Worker.Journal
import MessageRing.Proofs.Engine.Shifts
import MessageRing.Proofs.Engine.Diaries
import MessageRing.Proofs.Engine.Roster
import MessageRing.Proofs.Acts
import MessageRing.Proofs.Worker.Conduct
import MessageRing.Proofs.Batch.Chunks
import MessageRing.Proofs.Batch.Conservation
import MessageRing.Proofs.Batch.Routing
import MessageRing.Proofs.Batch.Flushes
import MessageRing.Proofs.Ring.Metrics
import MessageRing.Proofs.Worker.Smooth
import MessageRing.Proofs.Engine.Conduct
import MessageRing.Channel.Call
import MessageRing.Proofs.Channel.Attempts
import MessageRing.Proofs.Channel.Delivery
import MessageRing.Proofs.Ring.Ownership
import MessageRing.Proofs.Engine.Lifecycle
import MessageRing.Proofs.Engine.Parts
import MessageRing.Proofs.Engine.Audit
import MessageRing.Proofs.Engine.Capacity
import MessageRing.Proofs.Engine.Fates
import MessageRing.Proofs.Header
import MessageRing.Proofs.Builder
import MessageRing.Proofs.Merge.Strategies
import MessageRing.Proofs.Merge.Agreement
import MessageRing.Proofs.Merge.Rebatching
import MessageRing.Proofs.Channel.Failover
import MessageRing.Proofs.Channel.Rotation
import MessageRing.Proofs.Channel.Subscriptions
import MessageRing.Proofs.ErrorReport
import MessageRing.Proofs.Publication
import MessageRing.Proofs.Worker.Pace
import MessageRing.Proofs.Engine.Service
import MessageRing.Proofs.Orders.Settlement
import MessageRing.Proofs.Orders.Desk
import MessageRing.Proofs.Orders.Totals
import MessageRing.Proofs.Orders.Day
