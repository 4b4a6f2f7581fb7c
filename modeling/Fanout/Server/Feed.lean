import Fanout.Connection.Step

/-!
What the connections of a server report to: the count of the live ones and the observers. A
disconnection is counted before any observer is told of it.
-/

namespace Fanout

structure Raised where
  connection : Nat
  host : String
  signal : Signal
  live : Nat
  deriving DecidableEq, Repr

structure ServerFeed where
  bus : Bus := {}
  live : Nat := 0
  raised : List Raised := []
  deriving DecidableEq, Repr

/-- A disconnection goes to the observers of exactly that host. -/
def Signal.serverEvent (host : String) : Signal → Event
  | .message payload => .message host payload
  | .disconnected reason => .disconnection host reason.text

namespace ServerFeed

/-- The count never goes below zero. -/
def countOff (f : ServerFeed) : Signal → ServerFeed
  | .message _ => f
  | .disconnected _ => { f with live := f.live - 1 }

def tell (behaviour : Behaviour) (connection : Nat) : Sink ServerFeed := fun c signal f =>
  let f := f.countOff signal
  let (bus, outcome) := f.bus.deliver behaviour (signal.serverEvent c.host)
  let entry : Raised := { connection, host := c.host, signal, live := f.live }
  ({ f with bus, raised := f.raised ++ [entry] }, outcome)

end ServerFeed

end Fanout
