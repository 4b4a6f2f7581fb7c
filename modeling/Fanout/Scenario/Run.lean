import Fanout.Scenario.Step

/-!
Running a scenario. After each step everything that it causes happens; if its answer is not there
by then, the clock moves on from one alarm to the next until it is, or until patience ends.
-/

namespace Fanout

namespace Answer

def ofFailure (wrap : ConnectionError → Answer) : Failure → Answer
  | none => .ok
  | some e => wrap e

def ofReply (w : World) (p : Nat) (s : Server) (host : Option String) : Reply → Answer
  | .ok => .ok
  | .accepted c =>
      match s.connections[c]? with
      | some connection =>
          .accepted connection.host connection.phase (w.remoteName p c) connection.isConnected
      | none => .misplaced
  | .number n => .number n
  | .infos infos => .number infos.length
  | .returned failure =>
      match host with
      | some host => ofFailure (fun e => .serverError (.send host e)) failure
      | none => ofFailure .connectionError failure
  | .failed e => .serverError e

def ofClientReply : ClientReply → Answer
  | .ok => .ok
  | .failed e => .clientError e

def ofCall : CallEnd → Answer
  | .returned failure => ofFailure .connectionError failure
  | .crashed => .raised

end Answer

inductive View where
  | server (isListening : Bool) (live : Nat) (registry : Option (List (String × Phase × String)))
  | dropped
  | client (isConnected : Bool) (peer : Option SocketAddress)
  | connection (phase : Phase)
  deriving Repr

structure StepReport where
  answer : Answer
  sightings : List Sighting
  views : List (String × View)
  deriving Repr

namespace World

def taskAnswer? (w : World) (p t : Nat) (host : Option String) : Option Answer :=
  match w.party? p with
  | some (.server s) =>
      match s.tasks[t]? with
      | some (.done reply) => some (.ofReply w p s host reply)
      | some .crashed => some .raised
      | _ => none
  | some (.client s) =>
      match s.tasks[t]? with
      | some (.done reply) => some (.ofClientReply reply)
      | some .crashed => some .raised
      | _ => none
  | _ => none

def answer? (w : World) : Ticket → Option Answer
  | .settled a => some a
  | .task p t host => w.taskAnswer? p t host
  | .call p call =>
      match w.party? p with
      | some (.single s) => (s.connection.ending? call).map .ofCall
      | _ => none
  | .both first second => do
      let first ← w.answer? first
      let second ← w.answer? second
      some (.both first second)

def keepAnswers (w : World) : World :=
  { w with tickets := w.tickets.map fun (name, ticket) =>
      match w.answer? ticket with
      | some a => (name, .settled a)
      | none => (name, ticket) }

def patience : Nat :=
  8640000000

def awaitUntil (ticket : Ticket) (limit : Nat) : Nat → World → World × Answer
  | 0, w => (w, .hung)
  | fuel + 1, w =>
      let w := w.settle
      match w.answer? ticket with
      | some a => (w, a)
      | none =>
          match (w.alarms.filter (· ≤ limit)).min? with
          | some time => awaitUntil ticket limit fuel (w.idleTo time)
          | none => ((w.idleTo limit).settle, .hung)

/-- Each jump of the clock takes it at least a millisecond nearer to the limit. -/
def await (w : World) (ticket : Ticket) : World × Answer :=
  awaitUntil ticket (w.now + patience) (patience + 1) w

def step (w : World) : ScenarioStep → World × Answer
  | .spawn task step =>
      let (w, ticket) := w.begin step
      let w := w.settle
      ({ w with tickets := w.tickets ++ [(task, ticket)] }, .done (w.answer? ticket).isSome)
  | step =>
      let (w, ticket) := w.begin step
      w.await ticket

def registryView (w : World) (p : Nat) (s : Server) : List (String × Phase × String) :=
  s.registry.filterMap fun c =>
    (s.connections[c]?).map fun connection => (connection.host, connection.phase, w.remoteName p c)

def partyView (w : World) (p : Nat) : Party → View
  | .server s =>
      if w.leaving.contains p then .dropped
      else .server s.isListening s.live (if s.lock.isFree then some (w.registryView p s) else none)
  | .client s => .client s.isConnected s.peer?
  | .single s => .connection s.connection.phase

def connectionViews (w : World) : List (String × View) :=
  w.names.filterMap fun (name, p, t) => do
    let c ← w.acceptedBy? p t
    let party ← w.party? p
    let connection ← party.connection? c
    some (name, .connection connection.phase)

def views (w : World) : List (String × View) :=
  w.parties.zipIdx.map (fun ((name, party), p) => (name, w.partyView p party)) ++ w.connectionViews

def reportStep (w : World) (step : ScenarioStep) : World × StepReport :=
  let (w, answer) := w.step step
  let report := { answer, sightings := w.sightings, views := w.views }
  ({ w.keepAnswers with sightings := [] }, report)

def run (w : World) : List ScenarioStep → World × List StepReport
  | [] => (w, [])
  | step :: steps =>
      let (w, report) := w.reportStep step
      let (w, reports) := w.run steps
      (w, report :: reports)

end World

end Fanout
