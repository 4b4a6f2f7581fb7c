import Fanout.Main
import Fanout.Observer.Description
import Fanout.Observer.Session
import Fanout.Proofs.Connection.Lifecycle
import Fanout.Scenario.Program
import Fanout.Scenario.Run
import Fanout.Wait
import Fanout.Proofs.Connection.Closing
import Fanout.Proofs.Connection.Refusal
import Fanout.Proofs.Server.Soundness
import Fanout.Proofs.Server.Turn
import Fanout.Proofs.Server.Extension
import Fanout.Proofs.Server.Invariance
import Fanout.Proofs.Server.LiveCount
import Fanout.Proofs.Server.Run
import Fanout.Proofs.Server.Stopped
import Fanout.Proofs.Server.Overtaken
import Fanout.Proofs.Server.Drained
import Fanout.Proofs.Server.Shutdown
import Fanout.Proofs.Waiting.Scene
import Fanout.Proofs.Server.Attendance
import Fanout.Proofs.Server.Waiting
import Fanout.Proofs.Client.Turn
import Fanout.Proofs.Client.Soundness
import Fanout.Proofs.Client.Waiting
import Fanout.Proofs.Waiting.Deadlock
import Fanout.Proofs.Client.Run
import Fanout.Proofs.Observer.Delivery
import Fanout.Proofs.Observer.Ledger
import Fanout.Proofs.Observer.Hearing
import Fanout.Proofs.Server.Ledger
import Fanout.Proofs.Client.Ledger
import Fanout.Proofs.Observer.FilteredLog
import Fanout.Proofs.Client.Installation
import Fanout.Proofs.Client.LostRace
import Fanout.Proofs.Connection.Outward
import Fanout.Proofs.Connection.Unwinding
import Fanout.Proofs.Server.Outward
import Fanout.Proofs.Server.Crash
import Fanout.Proofs.Connection.Wire
import Fanout.Proofs.Connection.Path
import Fanout.Proofs.Server.Connections
import Fanout.Proofs.Client.Connections
import Fanout.Proofs.Sending.Interleaving
import Fanout.Proofs.Sending.Quiet
import Fanout.Proofs.Connection.Receipt
import Fanout.Proofs.Server.Amendment
import Fanout.Proofs.Server.Conservation
import Fanout.Proofs.Observer.Snapshot
import Fanout.Proofs.Server.Admission
import Fanout.Proofs.Server.Restart
import Fanout.Proofs.Server.Sweeping
import Fanout.Proofs.Client.Race
import Fanout.Proofs.Connection.Fleeting
import Fanout.Proofs.Server.Tenure
import Fanout.Proofs.Server.Release
import Fanout.Proofs.Sending.Attempt
import Fanout.Proofs.Sending.Broadcast
import Fanout.Proofs.Sending.Addressed
import Fanout.Proofs.Server.Eviction
import Fanout.Proofs.Server.Clearing
import Fanout.Proofs.Address.Host
import Fanout.Proofs.Config.RoundTrip
import Fanout.Proofs.Server.Cycle
import Fanout.Proofs.Server.BestEffort
import Fanout.Proofs.Connection.Listening
import Fanout.Proofs.CommandLine.Precedence
import Fanout.Proofs.CommandLine.Echo
