import JobAdmission.Assembly
import JobAdmission.Audit
import JobAdmission.Config.Basic
import JobAdmission.Config.Source
import JobAdmission.Dispatch.Dispatcher
import JobAdmission.Dispatch.Semaphore
import JobAdmission.Error
import JobAdmission.Feed.Apply
import JobAdmission.Feed.Event
import JobAdmission.FileTree
import JobAdmission.Health
import JobAdmission.Heap.Basic
import JobAdmission.Job.Basic
import JobAdmission.Job.Json
import JobAdmission.Job.Key
import JobAdmission.Json.Basic
import JobAdmission.Json.Decode
import JobAdmission.Json.Numeral
import JobAdmission.Json.Parser
import JobAdmission.Json.Printer
import JobAdmission.NameMap
import JobAdmission.Permission
import JobAdmission.Plugin.Basic
import JobAdmission.Plugin.Gate.Basic
import JobAdmission.Plugin.Gate.Json
import JobAdmission.Plugin.InTree
import JobAdmission.Plugin.Orders
import JobAdmission.Plugin.Pipeline
import JobAdmission.Proofs.Assembly
import JobAdmission.Proofs.Audit
import JobAdmission.Proofs.Config.Overrides
import JobAdmission.Proofs.Config.Validity
import JobAdmission.Proofs.Dispatch.Idle
import JobAdmission.Proofs.Dispatch.Permits
import JobAdmission.Proofs.Feed.Recovery
import JobAdmission.Proofs.Feed.Redelivery
import JobAdmission.Proofs.Feed.Refusal
import JobAdmission.Proofs.Feed.Steps
import JobAdmission.Proofs.Heap.AsMap
import JobAdmission.Proofs.Heap.Calls
import JobAdmission.Proofs.Heap.Index
import JobAdmission.Proofs.Heap.Order
import JobAdmission.Proofs.Job.Identity
import JobAdmission.Proofs.Json.Records
import JobAdmission.Proofs.Json.RoundTrip
import JobAdmission.Proofs.NameMap
import JobAdmission.Proofs.Permission.Granted
import JobAdmission.Proofs.Permission.Standing
import JobAdmission.Proofs.Plugin.Enabled
import JobAdmission.Proofs.Plugin.Kept
import JobAdmission.Proofs.Quantity.Display
import JobAdmission.Proofs.Quantity.Numeral
import JobAdmission.Proofs.Quantity.Range
import JobAdmission.Proofs.Queue.Bench
import JobAdmission.Proofs.Queue.Contents
import JobAdmission.Proofs.Queue.Draining
import JobAdmission.Proofs.Queue.Each
import JobAdmission.Proofs.Queue.Flush
import JobAdmission.Proofs.Queue.Flushing
import JobAdmission.Proofs.Queue.Heaps
import JobAdmission.Proofs.Queue.Items
import JobAdmission.Proofs.Queue.Lasting
import JobAdmission.Proofs.Queue.Lookup
import JobAdmission.Proofs.Queue.Next
import JobAdmission.Proofs.Queue.OneHeap
import JobAdmission.Proofs.Queue.Redefinition
import JobAdmission.Proofs.Queue.Redelivery
import JobAdmission.Proofs.Queue.Registry
import JobAdmission.Proofs.Queue.Replacement
import JobAdmission.Proofs.Queue.Retired
import JobAdmission.Proofs.Queue.Seats
import JobAdmission.Proofs.Queue.Visits
import JobAdmission.Proofs.Queue.Window
import JobAdmission.Proofs.Quota.Amounts
import JobAdmission.Proofs.Quota.Balance
import JobAdmission.Proofs.Quota.Book
import JobAdmission.Proofs.Quota.Isolation
import JobAdmission.Proofs.Quota.Limits
import JobAdmission.Proofs.Quota.Recorded
import JobAdmission.Proofs.Quota.Undone
import JobAdmission.Proofs.Quota.Verdict
import JobAdmission.Proofs.Run
import JobAdmission.Proofs.Scheduler.Admission
import JobAdmission.Proofs.Scheduler.Backoff
import JobAdmission.Proofs.Scheduler.Booked
import JobAdmission.Proofs.Scheduler.Course
import JobAdmission.Proofs.Scheduler.Custody
import JobAdmission.Proofs.Scheduler.Decisions
import JobAdmission.Proofs.Scheduler.DefaultQueue
import JobAdmission.Proofs.Scheduler.EachQueue
import JobAdmission.Proofs.Scheduler.Exits
import JobAdmission.Proofs.Scheduler.FirstServed
import JobAdmission.Proofs.Scheduler.Happening
import JobAdmission.Proofs.Scheduler.Loop
import JobAdmission.Proofs.Scheduler.NoOvercommit
import JobAdmission.Proofs.Scheduler.OneAdmission
import JobAdmission.Proofs.Scheduler.OwnKeys
import JobAdmission.Proofs.Scheduler.Rollback
import JobAdmission.Proofs.Scheduler.Sends
import JobAdmission.Proofs.Scheduler.Standard
import JobAdmission.Proofs.Scheduler.Trace
import JobAdmission.Proofs.Scheduler.Unconfirmed
import JobAdmission.Proofs.Scheduler.Whereabouts
import JobAdmission.Proofs.Site
import JobAdmission.Proofs.Text.ByteOrder
import JobAdmission.Quantity.Basic
import JobAdmission.Quantity.Text
import JobAdmission.Queue.Basic
import JobAdmission.Queue.Definition
import JobAdmission.Queue.Retry
import JobAdmission.Queue.Set
import JobAdmission.Quota.Basic
import JobAdmission.Quota.Book
import JobAdmission.Quota.Ledger
import JobAdmission.Release.Recorder
import JobAdmission.Release.Routes
import JobAdmission.Report
import JobAdmission.Resources
import JobAdmission.Scheduler.Basic
import JobAdmission.Scheduler.Cycle
import JobAdmission.Scheduler.Loop
import JobAdmission.Site
import JobAdmission.Slot
import JobAdmission.Store
import JobAdmission.Text.Blank
import JobAdmission.Text.Fields
import JobAdmission.Text.Integer
import JobAdmission.Text.Shown
import JobAdmission.Text.Unseen
