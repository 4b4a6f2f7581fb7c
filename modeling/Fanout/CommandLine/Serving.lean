import Fanout.CommandLine.RunError
import Fanout.CommandLine.Listing
import Fanout.Server.Schedule

/-!
A server as the program runs it. One loop accepts callers one after another and lists the
connections after each, until it is asked to stop or the listener fails. Everything that is received
joins a queue; a server that echoes has a task that takes the queue's items one at a time and sends
each back to the address that it came from.
-/

namespace Fanout

open CommandLine

inductive ServingPoint where
  | idle
  | accepting (task : Nat)
  | listing (task : Nat)
  | stopping (task : Nat)
  | ended (failure : Option ServerError)
  | crashed
  deriving DecidableEq, Repr

structure Serving where
  server : Server
  echoes : Bool := false
  json : Bool := false
  point : ServingPoint := .idle
  asked : Bool := false
  /-- How many items of the queue the echo task has taken. -/
  taken : Nat := 0
  /-- The send that the echo task waits for. -/
  echoing : Option Nat := none
  printed : List String := []
  deriving DecidableEq, Repr

namespace Serving

def behaviour : Behaviour := fun _ _ => []

def observer : Observer where
  onMessage := some 0

def ofServer (server : Server) (echoes json : Bool) : Serving where
  server := { server with feed := { server.feed with bus := server.feed.bus.subscribe observer } }
  echoes
  json

def messageOf? : Record → Option (String × List UInt8)
  | .call _ _ _ (.message host payload) => some (host, payload)
  | _ => none

def received (s : Serving) : List (String × List UInt8) :=
  s.server.feed.bus.log.filterMap messageOf?

def isEnded (s : Serving) : Bool :=
  match s.point with
  | .ended _ => true
  | .crashed => true
  | _ => false

def begin? (s : Serving) (r : Server.Request) : Option (Nat × Serving) := do
  let server ← s.server.step behaviour (.begin r)
  some (s.server.tasks.length, { s with server })

def stop? (s : Serving) : Option Serving := do
  let (t, s) ← s.begin? .shutdown
  some { s with point := .stopping t }

/-- An accept has ended. One that no caller came for is tried again. -/
def afterAccept? (s : Serving) : Job → Option Serving
  | .done (.accepted _) => do
      let (t, s) ← s.begin? .list
      some { s with point := .listing t }
  | .done (.failed e) => if e.kind = .accept then some { s with point := .idle } else s.stop?
  | .crashed => some { s with point := .crashed }
  | _ => none

def afterList? (s : Serving) : Job → Option Serving
  | .done (.infos infos) =>
      some { s with point := .idle, printed := s.printed ++ [listing s.json infos] }
  | _ => none

def afterStop? (s : Serving) : Job → Option Serving
  | .done (.failed e) => some { s with point := .ended (some e) }
  | .done _ => some { s with point := .ended none }
  | .crashed => some { s with point := .crashed }
  | _ => none

def loop? (s : Serving) : Option Serving :=
  match s.point with
  | .idle => do
      let (t, s) ← s.begin? (.accept s.server.config.acceptTimeoutSecs.toNat)
      some { s with point := .accepting t }
  | .accepting t => s.server.tasks[t]? >>= s.afterAccept?
  | .listing t => s.server.tasks[t]? >>= s.afterList?
  | .stopping t => s.server.tasks[t]? >>= s.afterStop?
  | _ => none

/-- The loop can be left between accepts and while it waits for one. -/
def heed? (s : Serving) : Option Serving :=
  if s.asked then
    match s.point with
    | .idle => s.stop?
    | .accepting _ => s.stop?
    | _ => none
  else none

def echo? (s : Serving) : Option Serving :=
  if s.echoes && !s.isEnded then
    match s.echoing with
    | none => do
        let (host, payload) ← s.received[s.taken]?
        let (t, s) ← s.begin? (.sendTo host payload)
        some { s with taken := s.taken + 1, echoing := some t }
    | some t => do
        let job ← s.server.tasks[t]?
        if job.isOver then some { s with echoing := none } else none
  else none

/-- What happens to the server by itself or from outside, and not at the program's request. -/
def isForeign : Server.Action → Bool
  | .start .. | .subscribe _ | .begin _ | .drop => false
  | _ => true

inductive Action where
  | server (a : Server.Action)
  | ask
  | loop
  | heed
  | echo

def step (a : Action) (s : Serving) : Option Serving :=
  match a with
  | .server a =>
      if isForeign a then (s.server.step behaviour a).map fun server => { s with server } else none
  | .ask => some { s with asked := true }
  | .loop => s.loop?
  | .heed => s.heed?
  | .echo => s.echo?

inductive Reachable : Serving → Prop
  | started {config : ServerConfig} {port : UInt16} {bound : Except String SocketAddress}
      {server : Server} {address : SocketAddress} (echoes json : Bool) :
      Server.start { config } port config.autoReap bound = (server, .ok address) →
      Reachable (ofServer server echoes json)
  | step {s s' : Serving} (a : Action) :
      Reachable s → s.step a = some s' → Reachable s'

def advance? (s : Serving) : Option Serving :=
  match [Action.heed, .loop, .echo].findSome? fun a => s.step a with
  | some s => some s
  | none => (s.server.advance? behaviour).map fun server => { s with server }

def advanceWithin : Nat → Serving → Serving
  | 0, s => s
  | fuel + 1, s =>
      match s.advance? with
      | none => s
      | some s => advanceWithin fuel s

def outcome? (s : Serving) : Option (Option RunError) :=
  match s.point with
  | .ended failure => some (failure.map .notShutDown)
  | _ => none

end Serving

end Fanout
