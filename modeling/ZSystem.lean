import ZSystem.Shared.Transition
import ZSystem.Shared.Chain
import ZSystem.Shared.Posix
import ZSystem.Shared.Semaphore
import ZSystem.Shared.Embed
import ZSystem.Shared.Holders
import ZSystem.Shared.Decimal
import ZSystem.Shared.Trace
import ZSystem.Thread.Registry
import ZSystem.Thread.Failure
import ZSystem.Thread.Program
import ZSystem.Thread.Locks
import ZSystem.Thread.Outline
import ZSystem.Thread.Writes
import ZSystem.Thread.Valid
import ZSystem.Thread.Gate
import ZSystem.Thread.Waiters
import ZSystem.Thread.Destroy
import ZSystem.Thread.Enqueue
import ZSystem.Thread.Returns
import ZSystem.Thread.Finish
import ZSystem.Thread.Turns
import ZSystem.Thread.Cancel
import ZSystem.Thread.Execute
import ZSystem.Thread.Publish
import ZSystem.Thread.Exact
import ZSystem.Thread.Signal
import ZSystem.MessageLoop.Queue
import ZSystem.MessageLoop.Program
import ZSystem.MessageLoop.Sections
import ZSystem.MessageLoop.Delivery
import ZSystem.MessageLoop.Lifetime
import ZSystem.MessageLoop.Load
import ZSystem.Semaphore.Families
import ZSystem.Semaphore.Removal
import ZSystem.Semaphore.Operation
import ZSystem.Semaphore.Values
import ZSystem.Abort.Pair
import ZSystem.Abort.Owners
import ZSystem.Stream.Pipe
import ZSystem.Stream.Drain
import ZSystem.Stream.Struct
import ZSystem.Stream.Descriptors
import ZSystem.Stream.Handles
import ZSystem.Stream.Typed
import ZSystem.Stream.Report
import ZSystem.Stream.Extract
import ZSystem.Stream.Insert
import ZSystem.Stream.Create
import ZSystem.Stream.Peer
import ZSystem.Wait.Select
import ZSystem.Wait.Retry
import ZSystem.Wait.Elements
import ZSystem.Wait.Timer
import ZSystem.Wait.Readers
import ZSystem.Wait.Agreement
import ZSystem.Server.Run
import ZSystem.Server.Dispatch
import ZSystem.Server.Descriptors
import ZSystem.Server.Refinement
import ZSystem.Server.Datagram
import ZSystem.Server.Create
import ZSystem.Server.Failure
import ZSystem.Process.Connect
import ZSystem.Process.Redirect
import ZSystem.Process.Abort
import ZSystem.Process.Execute
import ZSystem.Process.Outlive
import ZSystem.Shared.Races
import ZSystem.Thread.Races
import ZSystem.MessageLoop.Races
import ZSystem.MessageLoop.Memory
import ZSystem.Stream.Table
import ZSystem.Wait.Objects
import ZSystem.Shared.Turns
import ZSystem.Thread.Rest
import ZSystem.MessageLoop.Rest
import ZSystem.Semaphore.Store
import ZSystem.Shared.Torn
import ZSystem.Semaphore.Counter
import ZSystem.Server.Backlog
import ZSystem.Thread.Memory
import ZSystem.Thread.Immune
import ZSystem.Hosted.Program
import ZSystem.Hosted.Join
import ZSystem.Hosted.Going
import ZSystem.Hosted.Rest
