import Fanout.Client.Step
import Fanout.Connection.Schedule

/-!
What a client does when it is left to itself: the first step that one of its tasks or connections
can take, in the order of their numbers, and the times at which the clock gives it more to do.
-/

namespace Fanout.Client

def taskSteps (t : Nat) : List Action :=
  [.connectExpired t, .resume t]

def taskAdvance? (behaviour : Behaviour) (s : Client) (t : Nat) : Option Client :=
  (taskSteps t).findSome? fun a => s.step behaviour a

def connectionAdvance? (behaviour : Behaviour) (s : Client) (c : Nat) : Option Client := do
  let connection ← s.connections[c]?
  let a ← connection.next?
  s.step behaviour (.on c a)

def advance? (behaviour : Behaviour) (s : Client) : Option Client :=
  match (List.range s.tasks.length).findSome? (s.taskAdvance? behaviour) with
  | some s => some s
  | none => (List.range s.connections.length).findSome? (s.connectionAdvance? behaviour)

def connectAlarm? : ClientJob → Option Nat
  | .connect _ deadline => deadline
  | _ => none

def alarms (s : Client) : List Nat :=
  s.tasks.filterMap connectAlarm?

end Fanout.Client
