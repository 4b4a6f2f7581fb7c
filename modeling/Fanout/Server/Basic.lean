import Fanout.Server.Error
import Fanout.Server.Feed

/-!
A server: the sockets it has listened on, the registry of its connections with the lock that guards
it, the reaper, and the tasks that run its operations. A task rests at the points where it has to
wait; the state keeps every listener, connection and task that there has been, by number.
-/

namespace Fanout

/-- A listening socket. Closing it wakes the tasks that accept on it. -/
structure Listener where
  address : SocketAddress
  closed : Bool := false
  released : Bool := false
  pending : List Stream := []
  deriving DecidableEq, Repr

inductive Reply where
  | ok
  | accepted (connection : Nat)
  | number (n : Nat)
  | infos (infos : List ConnectionInfo)
  | returned (failure : Failure)
  | failed (e : ServerError)
  deriving DecidableEq, Repr

/--
What a task does and where it waits. Calls on connections are known by their numbers; a closing or
sending that goes through the registry also keeps its place in it.
-/
inductive Job where
  | accept (secs : Nat) (deadline : Option Nat) (listener : Nat)
  | register (listener connection : Nat)
  | refuse (connection call : Nat) (e : ServerError)
  | broadcast (payload : List UInt8) (sending : Option (Nat × Nat))
  | sendTo (address : String) (payload : List UInt8) (sending : Option (Nat × Nat))
  | send (connection call : Nat)
  | close (connection call : Nat)
  | reap (evicted : Nat) (closing : Option (Nat × Nat))
  | reaper (cancelled : Bool) (next : Nat) (sweep : Option (Nat × Option (Nat × Nat)))
  | stopReaper (listener : Option Nat) (reaper : Nat)
  | closeAll (listener : Option Nat) (failure : Option ServerError) (closing : Option (Nat × Nat))
  | count
  | list
  | done (reply : Reply)
  | crashed
  deriving DecidableEq, Repr

def Job.isOver : Job → Bool
  | .done _ => true
  | .crashed => true
  | _ => false

structure Server where
  config : ServerConfig
  listeners : List Listener := []
  listening : Option Nat := none
  reaper : Option Nat := none
  registry : List Nat := []
  lock : Lock := {}
  connections : List Connection := []
  tasks : List Job := []
  feed : ServerFeed := {}
  now : Nat := 0
  dropped : Bool := false
  deriving DecidableEq, Repr

namespace Server

def isListening (s : Server) : Bool :=
  s.listening.isSome

def localAddress? (s : Server) : Option SocketAddress := do
  let l ← s.listening
  let listener ← s.listeners[l]?
  some listener.address

def live (s : Server) : Nat :=
  s.feed.live

def isClosed (s : Server) (l : Nat) : Bool :=
  match s.listeners[l]? with
  | some listener => listener.closed
  | none => true

def hostOf (s : Server) (c : Nat) : String :=
  match s.connections[c]? with
  | some connection => connection.host
  | none => ""

def isConnected (s : Server) (c : Nat) : Bool :=
  match s.connections[c]? with
  | some connection => connection.isConnected
  | none => false

/-- The process is gone once a task has raised while it was unwinding. -/
def isAborted (s : Server) : Bool :=
  s.connections.any fun c => c.receiver == .ended .aborted

def isGiven (s : Server) (c : Nat) : Bool :=
  s.tasks.contains (.done (.accepted c))

def setTask (s : Server) (t : Nat) (job : Job) : Server :=
  { s with tasks := s.tasks.set t job }

def addTask (s : Server) (job : Job) : Server :=
  { s with tasks := s.tasks ++ [job] }

def changeListener (s : Server) (l : Nat) (f : Listener → Listener) : Server :=
  { s with listeners := s.listeners.modify l f }

def setConnection (s : Server) (c : Nat) (connection : Connection) : Server :=
  { s with connections := s.connections.set c connection }

def join (s : Server) (t : Nat) : Server :=
  { s with lock := s.lock.join t }

def leave (s : Server) (t : Nat) : Server :=
  { s with lock := s.lock.leave t }

def finish (s : Server) (t : Nat) (reply : Reply) : Server :=
  (s.leave t).setTask t (.done reply)

def crash (s : Server) (t : Nat) : Server :=
  (s.leave t).setTask t .crashed

end Server

end Fanout
