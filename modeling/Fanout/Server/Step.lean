import Fanout.Server.Operation

/-!
The steps of a server: its users begin operations, tasks go on, connections and their peers act,
and time passes. The steps may follow one another in any order in which they are possible.
-/

namespace Fanout.Server

inductive Request where
  | accept (secs : Nat)
  | broadcast (payload : List UInt8)
  | sendTo (address : String) (payload : List UInt8)
  | send (connection : Nat) (payload : List UInt8)
  | close (connection : Nat)
  | listen (connection : Nat)
  | reap
  | shutdown
  | count
  | list
  deriving DecidableEq, Repr

def begin (s : Server) : Request → Option Server
  | .accept secs => some (s.beginAccept secs)
  | .broadcast payload => some ((s.addTask (.broadcast payload none)).join s.tasks.length)
  | .sendTo address payload =>
      some ((s.addTask (.sendTo address payload none)).join s.tasks.length)
  | .send c payload =>
      if s.isGiven c then do
        let (call, s) ← s.beginSend c payload
        some (s.addTask (.send c call))
      else none
  | .close c =>
      if s.isGiven c then do
        let (call, s) ← s.beginClose c
        some (s.addTask (.close c call))
      else none
  | .listen c =>
      if s.isGiven c then do
        let connection ← s.connections[c]?
        let (connection, failure) := connection.listen
        some ((s.setConnection c connection).addTask (.done (.returned failure)))
      else none
  | .reap => some ((s.addTask (.reap 0 none)).join s.tasks.length)
  | .shutdown => some s.beginShutdown
  | .count => some ((s.addTask .count).join s.tasks.length)
  | .list => some ((s.addTask .list).join s.tasks.length)

/-- The last user lets go of the server: the listener is closed and the reaper cancelled. -/
def drop (s : Server) : Server :=
  let s :=
    match s.listening with
    | some l => s.changeListener l fun l => { l with closed := true, released := true }
    | none => s
  let s :=
    match s.reaper with
    | some r => s.cancelReaper r
    | none => s
  { s with listening := none, reaper := none, dropped := true }

def actOn (behaviour : Behaviour) (s : Server) (c : Nat) (a : Connection.Action) :
    Option Server := do
  let connection ← s.connections[c]?
  let (connection, feed) ← connection.step (ServerFeed.tell behaviour c) a s.feed
  some { s.setConnection c connection with feed }

inductive Action where
  | start (port : UInt16) (autoReap : Bool) (bound : Except String SocketAddress)
  | subscribe (o : Observer)
  | begin (r : Request)
  | drop
  | connect (listener : Nat) (stream : Stream)
  | acceptPeer (t : Nat)
  | acceptClosed (t : Nat)
  | acceptExpired (t : Nat)
  | acceptFailed (t : Nat) (reason : String)
  | resume (t : Nat)
  | on (connection : Nat) (a : Connection.Action)
  | pass (ms : Nat)

def step (behaviour : Behaviour) (a : Action) (s : Server) : Option Server :=
  if s.isAborted then none
  else
    match a with
    | .start port autoReap bound => if s.dropped then none else some (s.start port autoReap bound).1
    | .subscribe o =>
        if s.dropped then none
        else some { s with feed := { s.feed with bus := s.feed.bus.subscribe o } }
    | .begin r => if s.dropped then none else s.begin r
    | .drop => if s.dropped then none else some s.drop
    | .connect l stream =>
        if l < s.listeners.length then
          some (s.changeListener l fun l => { l with pending := l.pending ++ [stream] })
        else none
    | .acceptPeer t => s.acceptPeer t
    | .acceptClosed t => s.acceptClosed t
    | .acceptExpired t => s.acceptExpired t
    | .acceptFailed t reason => s.acceptFailed t reason
    | .resume t => s.resume t
    | .on c a => if a.isCall then none else s.actOn behaviour c a
    | .pass ms => some { s with now := s.now + ms }

inductive Reachable (behaviour : Behaviour) : Server → Prop
  | new (config : ServerConfig) : Reachable behaviour { config }
  | step {s s' : Server} (a : Action) :
      Reachable behaviour s → s.step behaviour a = some s' → Reachable behaviour s'

end Fanout.Server
