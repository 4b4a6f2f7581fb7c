import Fanout.Client.Basic

/-!
The operations of a client and its steps. An operation begins by running to the first point where
it waits; its task goes on when the peer has answered or when a call on a connection has ended.
The steps may follow one another in any order in which they are possible.
-/

namespace Fanout.Client

def beginSend (s : Client) (c : Nat) (payload : List UInt8) : Option (Nat × Client) := do
  let connection ← s.connections[c]?
  some (connection.calls.length, s.setConnection c (connection.beginSend payload))

def beginClose (s : Client) (c : Nat) : Option (Nat × Client) := do
  let connection ← s.connections[c]?
  some (connection.calls.length, s.setConnection c connection.beginClose)

inductive Request where
  | connect (ip : String) (port : UInt16)
  | send (payload : List UInt8)
  | close
  deriving DecidableEq, Repr

def target (ip : String) (port : UInt16) : String :=
  ip ++ ":" ++ toString port.toNat

def connectDeadline (s : Client) : Option Nat :=
  let secs := s.config.connectTimeoutSecs.toNat
  if secs = 0 then none else some (s.now + secs * 1000)

def beginConnect (s : Client) (ip : String) (port : UInt16) : Client :=
  match s.config.validate with
  | .error e => s.addTask (.done (.failed (.config e)))
  | .ok () =>
      if s.isConnected then s.addTask (.done (.failed .alreadyConnected))
      else s.addTask (.connect (target ip port) s.connectDeadline)

def begin (s : Client) : Request → Option Client
  | .connect ip port => some (s.beginConnect ip port)
  | .send payload =>
      match s.slot with
      | none => some (s.addTask (.done (.failed .notConnected)))
      | some c => do
          let (call, s) ← s.beginSend c payload
          some (s.addTask (.send c call))
  | .close =>
      match s.slot with
      | none => some (s.addTask (.done .ok))
      | some c => do
          let (call, s) ← { s with slot := none }.beginClose c
          some (s.addTask (.close c call))

def startListening (s : Client) (t : Nat) (address : String) (c : Nat) : Option Client := do
  let connection ← s.connections[c]?
  let (connection, failure) := connection.listen
  let s := s.setConnection c connection
  match failure with
  | none => some (s.setTask t (.done .ok))
  | some e => some (s.setTask t (.done (.failed (.connect address e.message))))

/-- Makes a new connection the current one, unless the current one is alive. -/
def install (s : Client) (t : Nat) (address : String) (c : Nat) : Option Client :=
  if s.isConnected then do
    let (call, s) ← s.beginClose c
    some (s.setTask t (.discard c call))
  else
    let previous := s.slot
    let s := { s with slot := some c }
    match previous with
    | none => s.startListening t address c
    | some stale => do
        let (call, s) ← s.beginClose stale
        some (s.setTask t (.replace address c stale call))

def connected (s : Client) (t : Nat) (stream : Stream) : Option Client :=
  match s.tasks[t]? with
  | some (.connect address _) =>
      match Connection.ofStream stream s.config.settings (.ofMillis s.now) with
      | .error reason => some (s.setTask t (.done (.failed (.connect address reason))))
      | .ok connection =>
          let c := s.connections.length
          { s with connections := s.connections ++ [connection] }.install t address c
  | _ => none

def connectFailed (s : Client) (t : Nat) (reason : String) : Option Client :=
  match s.tasks[t]? with
  | some (.connect address _) => some (s.setTask t (.done (.failed (.connect address reason))))
  | _ => none

def connectExpired (s : Client) (t : Nat) : Option Client :=
  match s.tasks[t]? with
  | some (.connect address (some deadline)) =>
      if deadline ≤ s.now then
        let secs := s.config.connectTimeoutSecs.toNat
        some (s.setTask t (.done (.failed (.connectTimeout address secs))))
      else none
  | _ => none

def awaited? : ClientJob → Option (Nat × Nat)
  | .discard c call => some (c, call)
  | .replace _ _ stale call => some (stale, call)
  | .send c call => some (c, call)
  | .close c call => some (c, call)
  | _ => none

def afterCall (s : Client) (t : Nat) (failure : Failure) : ClientJob → Option Client
  | .discard _ _ => some (s.setTask t (.done (.failed .alreadyConnected)))
  | .replace address c _ _ => s.startListening t address c
  | .send _ _ =>
      match failure with
      | none => some (s.setTask t (.done .ok))
      | some e => some (s.setTask t (.done (.failed (.send e))))
  | .close _ _ =>
      match failure with
      | none => some (s.setTask t (.done .ok))
      | some e => some (s.setTask t (.done (.failed (.close e))))
  | _ => none

/-- A task goes on if the call that it waits for has ended; a call that crashed crashes its task. -/
def resume (s : Client) (t : Nat) : Option Client := do
  let job ← s.tasks[t]?
  let (c, call) ← awaited? job
  let connection ← s.connections[c]?
  match ← connection.ending? call with
  | .crashed => some (s.setTask t .crashed)
  | .returned failure => s.afterCall t failure job

def actOn (behaviour : Behaviour) (s : Client) (c : Nat) (a : Connection.Action) :
    Option Client := do
  let connection ← s.connections[c]?
  let (connection, feed) ← connection.step (s.tell behaviour c) a s.feed
  some { s.setConnection c connection with feed }

inductive Action where
  | subscribe (o : Observer)
  | begin (r : Request)
  | connected (t : Nat) (stream : Stream)
  | connectFailed (t : Nat) (reason : String)
  | connectExpired (t : Nat)
  | resume (t : Nat)
  | on (connection : Nat) (a : Connection.Action)
  | pass (ms : Nat)

def step (behaviour : Behaviour) (a : Action) (s : Client) : Option Client :=
  if s.isAborted then none
  else
    match a with
    | .subscribe o => some { s with feed := { s.feed with bus := s.feed.bus.subscribe o } }
    | .begin r => s.begin r
    | .connected t stream => s.connected t stream
    | .connectFailed t reason => s.connectFailed t reason
    | .connectExpired t => s.connectExpired t
    | .resume t => s.resume t
    | .on c a => if a.isCall then none else s.actOn behaviour c a
    | .pass ms => some { s with now := s.now + ms }

inductive Reachable (behaviour : Behaviour) : Client → Prop
  | new (config : ClientConfig) : Reachable behaviour { config }
  | step {s s' : Client} (a : Action) :
      Reachable behaviour s → s.step behaviour a = some s' → Reachable behaviour s'

end Fanout.Client
