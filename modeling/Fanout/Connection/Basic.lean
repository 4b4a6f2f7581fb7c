import Fanout.Config.Client
import Fanout.Connection.Error
import Fanout.Connection.Info
import Fanout.Lock
import Fanout.SocketFault

/-!
One connection: its stream, its receive task, and the calls that send on it and close it. The state
keeps what has happened so far: the calls, the bytes that went out, the signals that were raised.
-/

namespace Fanout

inductive StreamEnd where
  | finished
  | failed (reason : String)
  deriving DecidableEq, Repr

structure Stream where
  peer : SocketAddress
  arrived : List UInt8 := []
  ending : Option StreamEnd := none
  deriving DecidableEq, Repr

inductive Reason where
  | peerClosed
  | closedLocally
  | aborted
  | failed (text : String)
  deriving DecidableEq, Repr

def Reason.text : Reason → String
  | .peerClosed => "Client closed connection"
  | .closedLocally => "Connection closed locally"
  | .aborted => "Receive task terminated unexpectedly"
  | .failed text => text

inductive Signal where
  | message (payload : List UInt8)
  | disconnected (reason : Reason)
  deriving DecidableEq, Repr

inductive ReadHalf where
  | kept
  | lent
  | gone
  deriving DecidableEq, Repr

/-- How a task ended. One that raises while it is already unwinding takes the process with it. -/
inductive TaskEnd where
  | finished
  | crashed
  | aborted
  deriving DecidableEq, Repr

/--
The receive task. In each round it first looks whether it has been cancelled, and then reads what
has arrived or waits.
-/
inductive Receiver where
  | absent
  | idle
  | reading
  | ended (how : TaskEnd)
  deriving DecidableEq, Repr

def Receiver.hasEnded : Receiver → Bool
  | .ended _ => true
  | _ => false

abbrev Failure :=
  Option ConnectionError

inductive SendPoint where
  | queued
  | writing (written : Nat)
  | done (written : Nat) (failure : Failure)
  deriving DecidableEq, Repr

inductive ClosePoint where
  /-- The connection is cancelled; in the queue of the closers. -/
  | queued
  /-- The only closer; in the queue for the writer. -/
  | draining
  /-- The write half is given up; waits for the receive task if it took the task's handle. -/
  | joining (tookHandle : Bool) (failure : Failure)
  | done (failure : Failure)
  | crashed
  deriving DecidableEq, Repr

inductive Call where
  | listen (failure : Failure)
  | send (payload : List UInt8) (point : SendPoint)
  | close (point : ClosePoint)
  deriving DecidableEq, Repr

inductive CallEnd where
  | returned (failure : Failure)
  | crashed
  deriving DecidableEq, Repr

def Call.ending? : Call → Option CallEnd
  | .listen failure => some (.returned failure)
  | .send _ (.done _ failure) => some (.returned failure)
  | .close (.done failure) => some (.returned failure)
  | .close .crashed => some .crashed
  | _ => none

inductive Halt where
  | halted
  | notConnected
  | failed (reason : String)
  deriving DecidableEq, Repr

/-- A socket that is no longer connected needs no shutting. -/
def Halt.failure : Halt → Failure
  | .halted => none
  | .notConnected => none
  | .failed reason => some (.io reason)

structure Connection where
  stream : Stream
  settings : Settings
  connectedAt : Timestamp
  phase : Phase := .created
  cancelled : Bool := false
  readHalf : ReadHalf := .kept
  writeHalf : Bool := true
  receiver : Receiver := .absent
  handle : Bool := false
  started : Nat := 0
  closing : Lock := {}
  writing : Lock := {}
  calls : List Call := []
  /-- The calls that have had the writer, in that order. -/
  writers : List Nat := []
  taken : Nat := 0
  wire : List UInt8 := []
  signals : List Signal := []
  deriving DecidableEq, Repr

namespace Connection

/-- A stream whose peer has already reset it has no peer any more. -/
def ofStream (stream : Stream) (settings : Settings) (connectedAt : Timestamp) :
    Except String Connection :=
  match stream.ending with
  | some (.failed _) => .error SocketFault.notConnected.message
  | _ => .ok { stream, settings, connectedAt }

def host (c : Connection) : String :=
  c.stream.peer.host

def isConnected (c : Connection) : Bool :=
  c.phase != .disconnected

def readSize (c : Connection) : Nat :=
  max c.settings.readBufferSize.toNat 1

def waiting (c : Connection) : List UInt8 :=
  c.stream.arrived.drop c.taken

def nextPayload (c : Connection) : List UInt8 :=
  c.waiting.take c.readSize

def setCall (c : Connection) (i : Nat) (call : Call) : Connection :=
  { c with calls := c.calls.set i call }

def addCall (c : Connection) (call : Call) : Connection :=
  { c with calls := c.calls ++ [call] }

def ending? (c : Connection) (i : Nat) : Option CallEnd :=
  c.calls[i]?.bind Call.ending?

def info (c : Connection) : ConnectionInfo where
  address := c.host
  peer := c.stream.peer
  phase := c.phase
  connectedAt := c.connectedAt

def description (c : Connection) : String :=
  "Connection \x7b peer: " ++ c.stream.peer.text ++ ", state: " ++ c.phase.title ++ " \x7d"

end Connection

end Fanout
