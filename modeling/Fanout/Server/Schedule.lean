import Fanout.Connection.Schedule
import Fanout.Server.Step

/-!
What a server does when it is left to itself: the first step that one of its tasks or connections
can take, in the order of their numbers, and the times at which the clock gives it more to do.
-/

namespace Fanout.Server

def taskSteps (t : Nat) : List Action :=
  [.acceptClosed t, .acceptPeer t, .acceptExpired t, .resume t]

def taskAdvance? (behaviour : Behaviour) (s : Server) (t : Nat) : Option Server :=
  (taskSteps t).findSome? fun a => s.step behaviour a

def connectionAdvance? (behaviour : Behaviour) (s : Server) (c : Nat) : Option Server := do
  let connection ← s.connections[c]?
  let a ← connection.next?
  s.step behaviour (.on c a)

def advance? (behaviour : Behaviour) (s : Server) : Option Server :=
  match (List.range s.tasks.length).findSome? (s.taskAdvance? behaviour) with
  | some s => some s
  | none => (List.range s.connections.length).findSome? (s.connectionAdvance? behaviour)

def acceptAlarm? : Job → Option Nat
  | .accept _ deadline _ => deadline
  | _ => none

def reaperAlarm? : Job → Option Nat
  | .reaper false next none => some next
  | _ => none

def isClean (s : Server) : Bool :=
  s.lock.isFree && s.registry.all s.isConnected

/-- The times at which something may happen. A reaper with nothing to reap does not count. -/
def alarms (s : Server) : List Nat :=
  s.tasks.filterMap acceptAlarm? ++ if s.isClean then [] else s.tasks.filterMap reaperAlarm?

def tickAfter (next period time : Nat) : Nat :=
  next + (time - next + period - 1) / period * period

def skipTicks (period time : Nat) : Job → Job
  | .reaper false next none => .reaper false (tickAfter next period time) none
  | job => job

/-- The clock moves on to a time, with sweeps on time on the way that find nothing to do. -/
def passIdle (s : Server) (time : Nat) : Server :=
  if s.isClean then
    { s with now := time, tasks := s.tasks.map (skipTicks s.period time) }
  else { s with now := time }

end Fanout.Server
