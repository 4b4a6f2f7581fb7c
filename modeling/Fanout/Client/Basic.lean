import Fanout.Client.Error
import Fanout.Connection.Step

/-!
A client: at most one current connection, the connections it has had, and the tasks that run its
operations. A task rests at the points where it has to wait. Every observer of a client is told of
a disconnection, whatever its filter, since there is only one peer.
-/

namespace Fanout

structure ClientRaised where
  connection : Nat
  host : String
  signal : Signal
  connected : Bool
  deriving DecidableEq, Repr

structure ClientFeed where
  bus : Bus := {}
  /-- All events so far; the dispatch of an event has the event's number. -/
  raised : List ClientRaised := []
  deriving DecidableEq, Repr

def Signal.clientEvent (host : String) : Signal → Event
  | .message payload => .message host payload
  | .disconnected reason => .disconnectionToAll host reason.text

inductive ClientReply where
  | ok
  | failed (e : ClientError)
  deriving DecidableEq, Repr

inductive ClientJob where
  | connect (address : String) (deadline : Option Nat)
  /-- Closes a connection that came too late, since another one is current. -/
  | discard (connection call : Nat)
  /-- Closes the dead connection that the new one has replaced. -/
  | replace (address : String) (connection stale call : Nat)
  | send (connection call : Nat)
  | close (connection call : Nat)
  | done (reply : ClientReply)
  | crashed
  deriving DecidableEq, Repr

def ClientJob.isOver : ClientJob → Bool
  | .done _ => true
  | .crashed => true
  | _ => false

structure Client where
  config : ClientConfig
  slot : Option Nat := none
  connections : List Connection := []
  tasks : List ClientJob := []
  feed : ClientFeed := {}
  now : Nat := 0
  deriving DecidableEq, Repr

namespace Client

def current? (s : Client) : Option Connection := do
  let c ← s.slot
  s.connections[c]?

def isConnected (s : Client) : Bool :=
  match s.current? with
  | some connection => connection.isConnected
  | none => false

def peer? (s : Client) : Option SocketAddress :=
  s.current?.map fun c => c.stream.peer

def isAborted (s : Client) : Bool :=
  s.connections.any fun c => c.receiver == .ended .aborted

def setTask (s : Client) (t : Nat) (job : ClientJob) : Client :=
  { s with tasks := s.tasks.set t job }

def addTask (s : Client) (job : ClientJob) : Client :=
  { s with tasks := s.tasks ++ [job] }

def setConnection (s : Client) (c : Nat) (connection : Connection) : Client :=
  { s with connections := s.connections.set c connection }

def tell (behaviour : Behaviour) (s : Client) (connection : Nat) : Sink ClientFeed :=
  fun c signal f =>
    let (bus, outcome) := f.bus.deliver behaviour (signal.clientEvent c.host)
    let connected := (s.setConnection connection c).isConnected
    let entry : ClientRaised := { connection, host := c.host, signal, connected }
    ({ f with bus, raised := f.raised ++ [entry] }, outcome)

end Client

end Fanout
