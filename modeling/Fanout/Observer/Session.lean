import Fanout.Observer.Script

namespace Fanout

inductive BusStep where
  | subscribe (s : Subscription)
  | dispatch (e : Event)

structure BusReport where
  records : List Record
  observers : Nat
  outcome : Outcome
  deriving Repr

structure BusSession where
  bus : Bus := {}
  roster : Roster := #[]

namespace BusSession

/--
Every nested dispatch is begun by the first call of another callback, so their number bounds the
depth.
-/
def depth (s : BusSession) : Nat :=
  s.roster.size + 1

def step (s : BusSession) : BusStep → BusReport × BusSession
  | .subscribe subscription =>
      let (observers, roster) := subscription.enroll s.roster
      let bus := observers.foldl Bus.subscribe s.bus
      (⟨[], bus.observers.length, .returned⟩, ⟨bus, roster⟩)
  | .dispatch e =>
      let (bus, outcome) :=
        (s.bus.dispatch s.roster.behaviour s.depth e).getD (s.bus, .raised)
      (⟨bus.log.drop s.bus.log.length, bus.observers.length, outcome⟩, { s with bus })

def run (s : BusSession) : List BusStep → List BusReport × BusSession
  | [] => ([], s)
  | step :: steps =>
      let (report, s) := s.step step
      let (reports, s) := s.run steps
      (report :: reports, s)

end BusSession

end Fanout
