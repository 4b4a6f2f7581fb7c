import Fanout.Scenario.Socket

/-!
What happens in a scenario by itself. Bytes flow along the links, callers are accepted, parties go
on, until nothing more can happen before the clock moves.
-/

namespace Fanout.World

def act? (w : World) (p c : Nat) (a : Connection.Action) : Option World := do
  let party ← w.party? p
  let party ← party.act w.behaviour c a
  some (w.setParty p party)

def actAlong? (w : World) (l p c : Nat) (a : Connection.Action) (link : Link) : Option World :=
  (w.act? p c a).map fun w => w.setLink l link

def writeLimit? (w : World) (p c call : Nat) : Option WriteLimit :=
  w.limits.find? fun m => m.party == p && m.connection == c && m.call == call

def block? (w : World) (p c call timeout : Nat) : Option World :=
  match w.writeLimit? p c call with
  | none => some { w with limits := w.limits ++ [⟨p, c, call, w.now + timeout⟩] }
  | some m => if m.time ≤ w.now then w.act? p c (.writeExpired call) else none

def write? (w : World) (l : Nat) (link : Link) (side : Side) (p c : Nat) (connection : Connection) :
    Option World := do
  let (call, bytes) ← connection.writing?
  let out := link.outgoing side
  if out.reader = .refusing then
    let incoming := link.incoming side
    match incoming.ending with
    | some (.failed reason) =>
        let link := link.setIncoming { incoming with ending := some .finished } side
        w.actAlong? l p c (.failWrite call reason) link
    | _ => w.act? p c (.failWrite call SocketFault.brokenPipe.message)
  else
    let n := min bytes.length out.room
    if n = 0 then w.block? p c call connection.settings.writeTimeoutMs.toNat
    else w.actAlong? l p c (.write call n) (link.setOutgoing (out.write (bytes.take n)) side)

def finishWriting? (w : World) (l : Nat) (link : Link) (side : Side) (connection : Connection) :
    Option World :=
  if !connection.writeHalf && (link.outgoing side).ending.isNone then
    some (w.setLink l (link.setOutgoing (link.outgoing side).finish side))
  else none

/-- What waits in the link reaches a receive task. A reset is reported only once. -/
def deliver? (w : World) (l : Nat) (link : Link) (side : Side) (p c : Nat) (connection : Connection) :
    Option World :=
  let incoming := link.incoming side
  if !connection.isReceiving || connection.stream.ending.isSome then none
  else if !incoming.waiting.isEmpty then
    w.actAlong? l p c (.arrive incoming.waiting) (link.setIncoming incoming.drain side)
  else
    match incoming.ending with
    | none => none
    | some how =>
        let link := link.setIncoming { incoming with ending := some .finished } side
        w.actAlong? l p c (.finish how) link

def release? (w : World) (l : Nat) (link : Link) (side : Side) (connection : Connection) :
    Option World :=
  if connection.isReleased && (link.incoming side).reader == .present then
    some (w.setLink l (link.close side (link.isUnread side || !connection.waiting.isEmpty)))
  else none

def flowAt? (w : World) (l : Nat) (side : Side) : Option World := do
  let link ← w.links[l]?
  match link.holder side with
  | .connection p c => do
      let party ← w.party? p
      let connection ← party.connection? c
      match w.write? l link side p c connection with
      | some w => some w
      | none =>
          match w.finishWriting? l link side connection with
          | some w => some w
          | none =>
              match w.deliver? l link side p c connection with
              | some w => some w
              | none => w.release? l link side connection
  | _ => none

def flow? (w : World) : Option World :=
  (List.range w.links.length).findSome? fun l =>
    match w.flowAt? l .caller with
    | some w => some w
    | none => w.flowAt? l .callee

def acceptFor? (w : World) (p : Nat) (s : Server) (t : Nat) (caller : Caller) : Option World := do
  let link ← w.links[caller.link]?
  let ending := match link.there.ending with
    | some (.failed reason) => some (StreamEnd.failed reason)
    | _ => none
  let c := s.connections.length
  let s ← s.step w.behaviour (.connect caller.listener { peer := link.origin, ending })
  let s ← s.step w.behaviour (.acceptPeer t)
  let link := if c < s.connections.length then { link with callee := .connection p c } else link
  let w := { w with callers := w.callers.erase caller }
  some ((w.setParty p (.server s)).setLink caller.link link)

def acceptOf? (w : World) (p : Nat) (s : Server) : Option World :=
  s.tasks.zipIdx.findSome? fun (job, t) =>
    match job with
    | .accept _ _ l =>
        if s.isClosed l then none
        else
          match w.callers.find? fun c => c.party == p && c.listener == l with
          | some caller => w.acceptFor? p s t caller
          | none => none
    | _ => none

def accept? (w : World) : Option World :=
  w.parties.zipIdx.findSome? fun ((_, party), p) =>
    match party with
    | .server s => w.acceptOf? p s
    | _ => none

def turnAway? (w : World) : Option World := do
  let caller ← w.callers.find? fun c =>
    match w.party? c.party with
    | some (.server s) => (s.listeners[c.listener]?).any fun l => l.released
    | _ => false
  let link ← w.links[caller.link]?
  some { w.setLink caller.link (link.reset .callee) with callers := w.callers.erase caller }

def answerDial (w : World) (d : Dial) (s : Client) : World :=
  let c := s.connections.length
  let (called, outcome) := w.call (.connection d.party c) none d.target
  let next :=
    match outcome with
    | .failed fault => s.step w.behaviour (.connectFailed d.task fault.message)
    | .unanswered => none
    | .linked _ => s.step w.behaviour (.connected d.task { peer := d.target })
  match next with
  | some s => called.setParty d.party (.client s)
  | none => called

def dial? (w : World) : Option World :=
  match w.dials with
  | [] => none
  | d :: dials =>
      let w := { w with dials }
      match w.party? d.party with
      | some (.client s) => some (w.answerDial d s)
      | _ => some w

def drop? (w : World) (p : Nat) : Party → Option World
  | .server s =>
      let isIdle := fun job => job.isOver || (match job with | .reaper .. => true | _ => false)
      if w.leaving.contains p && !s.dropped && s.tasks.all isIdle then
        (s.step w.behaviour .drop).map fun s => w.setParty p (.server s)
      else none
  | _ => none

def advance? (w : World) : Option World :=
  w.parties.zipIdx.findSome? fun ((_, party), p) =>
    match party.advance? w.behaviour with
    | some party => some (w.setParty p party)
    | none => w.drop? p party

def next? (w : World) : Option World :=
  match w.flow? with
  | some w => some w
  | none =>
      match w.accept? with
      | some w => some w
      | none =>
          match w.turnAway? with
          | some w => some w
          | none =>
              match w.dial? with
              | some w => some w
              | none => w.advance?

def settleWithin : Nat → World → World
  | 0, w => w
  | fuel + 1, w =>
      match w.next? with
      | none => w
      | some w => settleWithin fuel w

def effort : Nat :=
  100000000

def settle (w : World) : World :=
  settleWithin effort w

def isPending (w : World) (m : WriteLimit) : Bool :=
  match (w.party? m.party).bind fun p => p.connection? m.connection with
  | some c => c.writing?.any fun (call, _) => call == m.call
  | none => false

def alarms (w : World) : List Nat :=
  let limits := (w.limits.filter w.isPending).map WriteLimit.time
  (w.parties.flatMap (fun (_, party) => party.alarms) ++ limits).filter (w.now < ·)

def mapParties (w : World) (f : Party → Party) : World :=
  { w with parties := w.parties.map fun (name, party) => (name, f party) }

def passTo (w : World) (time : Nat) : World :=
  { w.mapParties (Party.passTo time) with now := time }

def idleTo (w : World) (time : Nat) : World :=
  { w.mapParties (Party.idleTo time) with now := time }

end Fanout.World
