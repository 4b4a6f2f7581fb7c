import Fanout.Connection.Basic
import Fanout.Observer.Bus

/-!
The steps of a connection. Each step belongs to one of its calls, to its receive task or to its
peer, and happens as a whole; the steps of different parties may follow one another in any order
in which they are possible. The events that a step raises go to a sink, which answers whether its
callback returned or raised.
-/

namespace Fanout

/-- Takes the signals that connections raise, in a state of its own. -/
abbrev Sink (σ : Type) :=
  Connection → Signal → σ → σ × Outcome

namespace Connection

def startListen (c : Connection) : Connection × Failure :=
  if c.cancelled then (c, some .closed)
  else
    match c.phase with
    | .listening => (c, some .alreadyListening)
    | .disconnected => (c, some .closed)
    | .created =>
        let c := { c with phase := .listening }
        if c.readHalf = .kept then
          ({ c with
              readHalf := .lent, receiver := .idle, handle := true, started := c.started + 1 },
            none)
        else (c, some .closed)

def listen (c : Connection) : Connection × Failure :=
  let (c, failure) := c.startListen
  (c.addCall (.listen failure), failure)

def beginSend (c : Connection) (payload : List UInt8) : Connection :=
  { c.addCall (.send payload .queued) with writing := c.writing.join c.calls.length }

def endSend (c : Connection) (i : Nat) (payload : List UInt8) (written : Nat) (failure : Failure) :
    Connection :=
  { c.setCall i (.send payload (.done written failure)) with writing := c.writing.leave i }

def obtainWriter (c : Connection) (i : Nat) : Option Connection :=
  match c.calls[i]? with
  | some (.send payload .queued) =>
      if c.writing.isHeldBy i then
        let c := { c with writers := c.writers ++ [i] }
        if c.writeHalf then
          if payload = [] then some (c.endSend i payload 0 none)
          else some (c.setCall i (.send payload (.writing 0)))
        else some (c.endSend i payload 0 (some .closed))
      else none
  | _ => none

def write (c : Connection) (i n : Nat) : Option Connection :=
  match c.calls[i]? with
  | some (.send payload (.writing written)) =>
      if 0 < n ∧ written + n ≤ payload.length then
        let c := { c with wire := c.wire ++ (payload.drop written).take n }
        if written + n = payload.length then some (c.endSend i payload (written + n) none)
        else some (c.setCall i (.send payload (.writing (written + n))))
      else none
  | _ => none

def abandonWrite (c : Connection) (i : Nat) (e : ConnectionError) : Option Connection :=
  match c.calls[i]? with
  | some (.send payload (.writing written)) => some (c.endSend i payload written (some e))
  | _ => none

variable {σ : Type}

def disconnect (tell : Sink σ) (c : Connection) (reason : Reason) (s : σ) :
    Connection × σ × Outcome :=
  if c.phase = .disconnected then (c, s, .returned)
  else
    let c := { c with
      phase := .disconnected
      signals := c.signals ++ [.disconnected reason] }
    let (s, outcome) := tell c (.disconnected reason) s
    (c, s, outcome)

def beginClose (c : Connection) : Connection :=
  { c.addCall (.close .queued) with
    cancelled := true
    closing := c.closing.join c.calls.length }

/-- One closer at a time goes on to wait for the writer. -/
def obtainClosing (c : Connection) (i : Nat) : Option Connection :=
  match c.calls[i]? with
  | some (.close .queued) =>
      if c.closing.isHeldBy i then
        some { c.setCall i (.close .draining) with writing := c.writing.join i }
      else none
  | _ => none

def halt (c : Connection) (i : Nat) (h : Halt) : Option Connection :=
  match c.calls[i]? with
  | some (.close .draining) =>
      if c.writing.isHeldBy i then
        let failure := if c.writeHalf then h.failure else none
        some { c.setCall i (.close (.joining c.handle failure)) with
          writeHalf := false
          handle := false
          writing := c.writing.leave i }
      else none
  | _ => none

def finishClose (tell : Sink σ) (c : Connection) (i : Nat) (s : σ) : Option (Connection × σ) :=
  match c.calls[i]? with
  | some (.close (.joining tookHandle failure)) =>
      if tookHandle && !c.receiver.hasEnded then none
      else
        let c := { c with readHalf := if c.readHalf = .kept then .gone else c.readHalf }
        let (c, s, outcome) := disconnect tell c .closedLocally s
        let point :=
          match outcome with
          | .returned => ClosePoint.done failure
          | .raised => ClosePoint.crashed
        some ({ c.setCall i (.close point) with closing := c.closing.leave i }, s)
  | _ => none

def endReceive (tell : Sink σ) (c : Connection) (reason : Reason) (s : σ) : Connection × σ :=
  let (c, s, outcome) := disconnect tell { c with readHalf := .gone } reason s
  let how :=
    match outcome with
    | .returned => TaskEnd.finished
    | .raised => TaskEnd.crashed
  ({ c with receiver := .ended how }, s)

/-- The receive task unwinds out of a callback that raised, and reports on its way. -/
def unwindReceive (tell : Sink σ) (c : Connection) (s : σ) : Connection × σ :=
  let (c, s, outcome) := disconnect tell { c with readHalf := .gone } .aborted s
  let how :=
    match outcome with
    | .returned => TaskEnd.crashed
    | .raised => TaskEnd.aborted
  ({ c with receiver := .ended how }, s)

/-- A round of the receive task begins; a cancelled task reads no more. -/
def look (tell : Sink σ) (c : Connection) (s : σ) : Option (Connection × σ) :=
  if c.receiver = .idle then
    if c.cancelled then some (endReceive tell c .closedLocally s)
    else some ({ c with receiver := .reading }, s)
  else none

def deliver (tell : Sink σ) (c : Connection) (payload : List UInt8) (s : σ) : Connection × σ :=
  let c := { c with
    taken := c.taken + payload.length
    signals := c.signals ++ [.message payload] }
  let (s, outcome) := tell c (.message payload) s
  match outcome with
  | .returned => ({ c with receiver := .idle }, s)
  | .raised => unwindReceive tell c s

def read (tell : Sink σ) (c : Connection) (s : σ) : Option (Connection × σ) :=
  if c.receiver = .reading then
    if c.nextPayload ≠ [] then some (deliver tell c c.nextPayload s)
    else
      match c.stream.ending with
      | some .finished => some (endReceive tell c .peerClosed s)
      | some (.failed text) => some (endReceive tell c (.failed text) s)
      | none => some ({ c with receiver := .idle }, s)
  else none

def arrive (c : Connection) (bytes : List UInt8) : Option Connection :=
  if c.stream.ending = none then
    some { c with stream := { c.stream with arrived := c.stream.arrived ++ bytes } }
  else none

def finish (c : Connection) (how : StreamEnd) : Option Connection :=
  if c.stream.ending = none then some { c with stream := { c.stream with ending := some how } }
  else none

inductive Action where
  | listen
  | send (payload : List UInt8)
  | close
  | obtainWriter (i : Nat)
  | write (i n : Nat)
  | failWrite (i : Nat) (reason : String)
  | writeExpired (i : Nat)
  | obtainClosing (i : Nat)
  | halt (i : Nat) (h : Halt)
  | finishClose (i : Nat)
  | look
  | read
  | arrive (bytes : List UInt8)
  | finish (how : StreamEnd)
  deriving DecidableEq, Repr

def Action.isCall : Action → Bool
  | .listen | .send _ | .close => true
  | _ => false

def step (c : Connection) (tell : Sink σ) (a : Action) (s : σ) : Option (Connection × σ) :=
  match a with
  | .listen => some (c.listen.1, s)
  | .send payload => some (c.beginSend payload, s)
  | .close => some (c.beginClose, s)
  | .obtainWriter i => (c.obtainWriter i).map (·, s)
  | .write i n => (c.write i n).map (·, s)
  | .failWrite i reason => (c.abandonWrite i (.io reason)).map (·, s)
  | .writeExpired i => (c.abandonWrite i .writeTimeout).map (·, s)
  | .obtainClosing i => (c.obtainClosing i).map (·, s)
  | .halt i h => (c.halt i h).map (·, s)
  | .finishClose i => c.finishClose tell i s
  | .look => c.look tell s
  | .read => c.read tell s
  | .arrive bytes => (c.arrive bytes).map (·, s)
  | .finish how => (c.finish how).map (·, s)

inductive Reachable : Connection → Prop
  | opened {stream : Stream} {settings : Settings} {time : Timestamp} {c : Connection} :
      ofStream stream settings time = .ok c → Reachable c
  | step {σ : Type} {c c' : Connection} {s s' : σ} (tell : Sink σ) (a : Action) :
      Reachable c → c.step tell a s = some (c', s') → Reachable c'

end Connection

end Fanout
