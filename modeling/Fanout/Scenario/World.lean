import Fanout.Observer.Script
import Fanout.Scenario.Link
import Fanout.Scenario.Network
import Fanout.Scenario.Party

/-!
The state of a scenario: its parties, the bare peers and listeners at the other ends of their
links, the clock, and the answers that are still awaited.
-/

namespace Fanout

inductive Answer where
  | ok
  | misplaced
  | hung
  | raised
  | refused
  | done (b : Bool)
  | number (n : Nat)
  | text (s : String)
  | created (bind : Ip) (reapMs : Nat)
  | listening (address : SocketAddress)
  | accepted (host : String) (phase : Phase) (remote : String) (isConnected : Bool)
  | opened (host : String) (phase : Phase)
  | notOpened (reason : String)
  | caller (host name : String)
  | data (bytes : List UInt8) (ending : Option StreamEnd)
  | connectionError (e : ConnectionError)
  | serverError (e : ServerError)
  | clientError (e : ClientError)
  | both (first second : Answer)
  deriving Repr

inductive Ticket where
  | settled (a : Answer)
  /-- A task of a party; with a host, its failure is one of sending to that host. -/
  | task (party task : Nat) (host : Option String)
  | call (party call : Nat)
  | both (first second : Ticket)
  deriving Repr

structure Peer where
  name : String
  link : Nat
  side : Side
  deriving Repr

/-- A listener without a server. A stalled one never answers a caller. -/
structure BareListener where
  name : String
  address : SocketAddress
  isStalled : Bool := false
  isClosed : Bool := false
  queue : List Nat := []
  deriving Repr

structure Caller where
  party : Nat
  listener : Nat
  link : Nat
  deriving DecidableEq, Repr

structure Dial where
  party : Nat
  task : Nat
  target : SocketAddress
  deriving DecidableEq, Repr

structure WriteLimit where
  party : Nat
  connection : Nat
  call : Nat
  time : Nat
  deriving DecidableEq, Repr

structure Sighting where
  who : String
  event : Event
  aside : Option Aside
  deriving Repr

def firstPort : Nat :=
  49152

structure World where
  network : Network := .loopback
  now : Nat := 0
  freshPort : Nat := firstPort
  roster : Roster := #[]
  quiet : List Handler := []
  parties : List (String × Party) := []
  leaving : List Nat := []
  peers : List Peer := []
  listeners : List BareListener := []
  links : List Link := []
  callers : List Caller := []
  dials : List Dial := []
  limits : List WriteLimit := []
  names : List (String × Nat × Nat) := []
  tickets : List (String × Ticket) := []
  sightings : List Sighting := []

namespace World

def partyName (w : World) (p : Nat) : String :=
  match w.parties[p]? with
  | some (name, _) => name
  | none => ""

def party? (w : World) (p : Nat) : Option Party :=
  (w.parties[p]?).map Prod.snd

def findParty? (w : World) (name : String) : Option (Nat × Party) :=
  w.parties.zipIdx.findSome? fun ((n, party), p) => if n == name then some (p, party) else none

def server? (w : World) (name : String) : Option (Nat × Server) :=
  match w.findParty? name with
  | some (p, .server s) => if w.leaving.contains p then none else some (p, s)
  | _ => none

def client? (w : World) (name : String) : Option (Nat × Client) :=
  match w.findParty? name with
  | some (p, .client s) => some (p, s)
  | _ => none

def peer? (w : World) (name : String) : Option Peer :=
  w.peers.find? fun p => p.name == name

def bareListener? (w : World) (name : String) : Option (Nat × BareListener) :=
  w.listeners.zipIdx.findSome? fun (l, i) => if l.name == name then some (i, l) else none

def acceptedBy? (w : World) (p t : Nat) : Option Nat :=
  match w.party? p with
  | some (.server s) =>
      match s.tasks[t]? with
      | some (.done (.accepted c)) => some c
      | _ => none
  | _ => none

def connection? (w : World) (name : String) : Option (Nat × Nat) :=
  match w.findParty? name with
  | some (p, .single _) => some (p, 0)
  | _ =>
      w.names.findSome? fun (n, p, t) =>
        if n == name then (w.acceptedBy? p t).map (p, ·) else none

def holderName (w : World) : Holder → String
  | .connection p _ => w.partyName p
  | .peer i =>
      match w.peers[i]? with
      | some peer => peer.name
      | none => ""
  | .queue => ""

def remoteName (w : World) (p c : Nat) : String :=
  match w.links.find? fun l => l.callee == .connection p c with
  | some l => w.holderName l.caller
  | none => ""

def addParty (w : World) (name : String) (party : Party) : World :=
  { w with parties := w.parties ++ [(name, party)] }

def sighting (w : World) (dropped : Bool) : Handler × Event × Option Aside → Sighting
  | (h, event, aside) =>
      { who := w.roster.label h
        event
        aside := if dropped || w.quiet.contains h then none else aside }

def setParty (w : World) (p : Nat) (party : Party) : World :=
  match w.parties[p]? with
  | none => w
  | some (name, before) =>
      let dropped := w.leaving.contains p
      let calls := (party.callsAfter before.shown).map (w.sighting dropped)
      let heard := (party.heardAfter before.shown).map fun (event, aside) => ⟨name, event, aside⟩
      { w with
        parties := w.parties.set p (name, party)
        sightings := w.sightings ++ calls ++ heard }

def setLink (w : World) (l : Nat) (link : Link) : World :=
  { w with links := w.links.set l link }

def addLink (w : World) (link : Link) : World :=
  { w with links := w.links ++ [link] }

def behaviour (w : World) : Behaviour :=
  w.roster.behaviour

end World

end Fanout
