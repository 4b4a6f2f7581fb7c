import Fanout.Client.Schedule
import Fanout.CommandLine.RunError

/-!
A client as the program runs it. It connects, and then sends the lines of its input and prints what
it receives, whichever is there, until the input or the connection ends; at last it closes.
-/

namespace Fanout

open CommandLine

inductive RelayPoint where
  | connecting (task : Nat)
  | relaying
  | sending (task : Nat)
  | closing (task : Nat)
  | ended (failure : Option RunError)
  deriving DecidableEq, Repr

inductive InputEnd where
  | finished
  | unreadable (reason : String)
  deriving DecidableEq, Repr

structure Relay where
  ip : String
  port : UInt16
  client : Client
  point : RelayPoint
  lines : List (List UInt8) := []
  inputEnd : Option InputEnd := none
  taken : Nat := 0
  printed : List UInt8 := []
  deriving DecidableEq, Repr

namespace Relay

def behaviour : Behaviour := fun _ _ => []

def observer : Observer where
  onMessage := some 0
  onDisconnect := some 1

def ofFlags? (config : ClientConfig) (ip : String) (port : UInt16) (now : Nat) : Option Relay := do
  let bus : Bus := Bus.subscribe {} observer
  let client : Client := { config, feed := { bus }, now }
  let client ← client.step behaviour (.begin (.connect ip port))
  some { ip, port, client, point := .connecting 0 }

def begin? (s : Relay) (r : Client.Request) : Option (Nat × Relay) := do
  let client ← s.client.step behaviour (.begin r)
  some (s.client.tasks.length, { s with client })

def close? (s : Relay) : Option Relay := do
  let (t, s) ← s.begin? .close
  some { s with point := .closing t }

def after? (s : Relay) (wrap : ClientError → RunError) (next : RelayPoint) : ClientJob → Option Relay
  | .done .ok => some { s with point := next }
  | .done (.failed e) => some { s with point := .ended (some (wrap e)) }
  | _ => none

def takeLine? (s : Relay) : Option Relay :=
  match s.lines with
  | line :: lines => do
      let (t, s) ← { s with lines }.begin? (.send (line ++ [10]))
      some { s with point := .sending t }
  | [] =>
      match s.inputEnd with
      | none => none
      | some .finished => s.close?
      | some (.unreadable reason) =>
          some { s with point := .ended (some (.inputUnreadable reason)) }

def takeEvent? (s : Relay) : Option Relay :=
  match s.client.feed.bus.log[s.taken]? with
  | some (.call _ _ _ (.message _ payload)) =>
      some { s with taken := s.taken + 1, printed := s.printed ++ payload }
  | some (.call _ _ _ _) => { s with taken := s.taken + 1 }.close?
  | _ => none

def advance? (s : Relay) : Option Relay :=
  let own :=
    match s.point with
    | .connecting t => s.client.tasks[t]? >>= s.after? (.notConnected s.ip s.port) .relaying
    | .relaying =>
        match s.takeEvent? with
        | some s => some s
        | none => s.takeLine?
    | .sending t => s.client.tasks[t]? >>= s.after? .notSent .relaying
    | .closing t => s.client.tasks[t]? >>= s.after? .notClosed (.ended none)
    | .ended _ => none
  match own with
  | some s => some s
  | none => (s.client.advance? behaviour).map fun client => { s with client }

def advanceWithin : Nat → Relay → Relay
  | 0, s => s
  | fuel + 1, s =>
      match s.advance? with
      | none => s
      | some s => advanceWithin fuel s

def outcome? (s : Relay) : Option (Option RunError) :=
  match s.point with
  | .ended failure => some failure
  | _ => none

end Relay

end Fanout
