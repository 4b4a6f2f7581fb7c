import Fanout.Client.Schedule
import Fanout.Server.Schedule

namespace Fanout

structure Single where
  connection : Connection
  raisesOnMessage : Bool := false
  raisesOnDisconnect : Bool := false
  heard : List (Signal × Bool) := []
  deriving DecidableEq, Repr

namespace Single

def outcome (s : Single) : Signal → Outcome
  | .message _ => if s.raisesOnMessage then .raised else .returned
  | .disconnected _ => if s.raisesOnDisconnect then .raised else .returned

def tell (s : Single) : Sink (List (Signal × Bool)) := fun c signal heard =>
  (heard ++ [(signal, c.isConnected)], s.outcome signal)

def act (s : Single) (a : Connection.Action) : Option Single := do
  let (connection, heard) ← s.connection.step s.tell a s.heard
  some { s with connection, heard }

end Single

inductive Party where
  | server (s : Server)
  | client (s : Client)
  | single (s : Single)

inductive Aside where
  | live (n : Nat)
  | connected (b : Bool)
  deriving DecidableEq, Repr

namespace Party

def connection? : Party → Nat → Option Connection
  | .server s, c => s.connections[c]?
  | .client s, c => s.connections[c]?
  | .single s, 0 => some s.connection
  | .single _, _ => none

def connections : Party → List Connection
  | .server s => s.connections
  | .client s => s.connections
  | .single s => [s.connection]

def act (behaviour : Behaviour) (c : Nat) (a : Connection.Action) : Party → Option Party
  | .server s => (s.step behaviour (.on c a)).map .server
  | .client s => (s.step behaviour (.on c a)).map .client
  | .single s => if c = 0 then (s.act a).map .single else none

def advance? (behaviour : Behaviour) : Party → Option Party
  | .server s => (s.advance? behaviour).map .server
  | .client s => (s.advance? behaviour).map .client
  | .single s => do
      let a ← s.connection.next?
      (s.act a).map .single

def alarms : Party → List Nat
  | .server s => s.alarms
  | .client s => s.alarms
  | .single _ => []

def passTo (time : Nat) : Party → Party
  | .server s => .server { s with now := time }
  | .client s => .client { s with now := time }
  | .single s => .single s

def idleTo (time : Nat) : Party → Party
  | .server s => .server (s.passIdle time)
  | p => p.passTo time

def shown : Party → Nat
  | .server s => s.feed.bus.log.length
  | .client s => s.feed.bus.log.length
  | .single s => s.heard.length

def asideOf (aside : Nat → Option Aside) : Record → Option (Handler × Event × Option Aside)
  | .call dispatch _ h e => some (h, e, aside dispatch)
  | .size _ => none

def callsAfter (n : Nat) : Party → List (Handler × Event × Option Aside)
  | .server s =>
      (s.feed.bus.log.drop n).filterMap
        (asideOf fun d => (s.feed.raised[d]?).map fun r => .live r.live)
  | .client s =>
      (s.feed.bus.log.drop n).filterMap
        (asideOf fun d => (s.feed.raised[d]?).map fun r => .connected r.connected)
  | .single _ => []

def heardAfter (n : Nat) : Party → List (Event × Option Aside)
  | .single s =>
      (s.heard.drop n).map fun (signal, connected) =>
        (signal.serverEvent s.connection.host, some (.connected connected))
  | _ => []

end Party

end Fanout
