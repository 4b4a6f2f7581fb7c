import Fanout.Server.Basic

/-!
The operations of a server, each as the stretches that a task runs without waiting. An operation
begins by running to the first point where it waits; `proceed` goes on from a point where the task
waits for the registry, the clock or another task, and `afterCall` from one where it waits for a
call on a connection to end.
-/

namespace Fanout.Server

def spawnReaper (s : Server) : Server :=
  { s.addTask (.reaper false s.now none) with reaper := some s.tasks.length }

def cancelReaper (s : Server) (t : Nat) : Server :=
  match s.tasks[t]? with
  | some (.reaper _ next sweep) => s.setTask t (.reaper true next sweep)
  | _ => s

/--
Opens a listener. `bound` is what the system answers to the request for a socket on the configured
address and the given port: the address of the socket, or why there is none.
-/
def start (s : Server) (port : UInt16) (autoReap : Bool) (bound : Except String SocketAddress) :
    Server × Except ServerError SocketAddress :=
  match s.config.validate with
  | .error e => (s, .error (.config e))
  | .ok () =>
      if s.isListening then (s, .error .alreadyStarted)
      else
        match bound with
        | .error reason => (s, .error (.setup { ip := s.config.bindAddress, port } reason))
        | .ok address =>
            let s := { s with
              listeners := s.listeners ++ [{ address }]
              listening := some s.listeners.length }
            if autoReap then
              let s' := s.spawnReaper
              match s.reaper with
              | some previous => (s'.cancelReaper previous, .ok address)
              | none => (s', .ok address)
            else (s, .ok address)

def beginSend (s : Server) (c : Nat) (payload : List UInt8) : Option (Nat × Server) := do
  let connection ← s.connections[c]?
  some (connection.calls.length, s.setConnection c (connection.beginSend payload))

def beginClose (s : Server) (c : Nat) : Option (Nat × Server) := do
  let connection ← s.connections[c]?
  some (connection.calls.length, s.setConnection c connection.beginClose)

def acceptDeadline (s : Server) (secs : Nat) : Option Nat :=
  if secs = 0 then none else some (s.now + secs * 1000)

def beginAccept (s : Server) (secs : Nat) : Server :=
  match s.listening with
  | none => s.addTask (.done (.failed .listenerClosed))
  | some l => s.addTask (.accept secs (s.acceptDeadline secs) l)

def acceptPeer (s : Server) (t : Nat) : Option Server :=
  match s.tasks[t]? with
  | some (.accept _ _ l) => do
      let listener ← s.listeners[l]?
      match listener.pending with
      | [] => none
      | stream :: pending =>
          let s := s.changeListener l fun listener => { listener with pending }
          match Connection.ofStream stream s.config.settings (.ofMillis s.now) with
          | .error reason => some (s.setTask t (.done (.failed (.accept reason))))
          | .ok connection =>
              let c := s.connections.length
              let s := { s with connections := s.connections ++ [connection] }
              some ((s.join t).setTask t (.register l c))
  | _ => none

def acceptClosed (s : Server) (t : Nat) : Option Server :=
  match s.tasks[t]? with
  | some (.accept _ _ l) =>
      if s.isClosed l then some (s.setTask t (.done (.failed .listenerClosed))) else none
  | _ => none

/-- A wait ends at its deadline, but a peer that is there by then is still accepted. -/
def acceptExpired (s : Server) (t : Nat) : Option Server :=
  match s.tasks[t]? with
  | some (.accept secs (some deadline) l) => do
      let listener ← s.listeners[l]?
      if deadline ≤ s.now ∧ listener.pending = [] then
        some (s.setTask t (.done (.failed (.acceptTimeout secs))))
      else none
  | _ => none

def acceptFailed (s : Server) (t : Nat) (reason : String) : Option Server :=
  match s.tasks[t]? with
  | some (.accept _ _ _) => some (s.setTask t (.done (.failed (.accept reason))))
  | _ => none

def countOn (s : Server) : Server :=
  { s with feed := { s.feed with live := s.feed.live + 1 } }

def refuse (s : Server) (t c : Nat) (e : ServerError) : Option Server := do
  let (call, s) ← (s.leave t).beginClose c
  some (s.setTask t (.refuse c call e))

/--
Registers a connection and starts to listen on it. A connection that was accepted on a listener
closed since then is counted too, so that its disconnection balances the count.
-/
def register (s : Server) (t l c : Nat) : Option Server := do
  let s := s.countOn
  if s.isClosed l then s.refuse t c .listenerClosed
  else
    let connection ← s.connections[c]?
    let (connection, failure) := connection.listen
    let s := s.setConnection c connection
    match failure with
    | none => some ({ s with registry := s.registry ++ [c] }.finish t (.accepted c))
    | some e => s.refuse t c (.accept e.message)

def broadcastFrom (s : Server) (t : Nat) (payload : List UInt8) (place : Nat) : Option Server :=
  match s.registry[place]? with
  | none => some (s.finish t .ok)
  | some c => do
      let (call, s) ← s.beginSend c payload
      some (s.setTask t (.broadcast payload (some (place, call))))

def sendToFirst (s : Server) (t : Nat) (address : String) (payload : List UInt8) : Option Server :=
  match s.registry.find? fun c => s.hostOf c == address with
  | none => some (s.finish t (.failed (.clientNotFound address)))
  | some c => do
      let (call, s) ← s.beginSend c payload
      some (s.setTask t (.sendTo address payload (some (c, call))))

def sendReply (s : Server) (c : Nat) : Failure → Reply
  | none => .ok
  | some e => .failed (.send (s.hostOf c) e)

def sweep (s : Server) : Option (Option (Nat × Nat) × Server) :=
  match s.registry.findIdx? fun c => !s.isConnected c with
  | none => some (none, s)
  | some place => do
      let c ← s.registry[place]?
      let (call, s) ← s.beginClose c
      some (some (place, call), s)

def evict (s : Server) (place : Nat) : Server :=
  { s with registry := s.registry.eraseIdx place }

def reapFrom (s : Server) (t evicted : Nat) : Option Server := do
  match ← s.sweep with
  | (some closing, s) => some (s.setTask t (.reap evicted (some closing)))
  | (none, s) => some (s.finish t (.number evicted))

def reaperFrom (s : Server) (t : Nat) (cancelled : Bool) (next evicted : Nat) : Option Server := do
  match ← s.sweep with
  | (some closing, s) => some (s.setTask t (.reaper cancelled next (some (evicted, some closing))))
  | (none, s) => some ((s.leave t).setTask t (.reaper cancelled next none))

/-- A tick this little late still counts as being on time. -/
def tickTolerance : Nat :=
  5

/-- A tick on time is followed by one a period after it was due, a late one by one after it fired. -/
def nextTick (due now period : Nat) : Nat :=
  if now > due + tickTolerance then now + period else due + period

def period (s : Server) : Nat :=
  s.config.reapIntervalMs.toNat

def tick (s : Server) (t : Nat) (cancelled : Bool) (next : Nat) : Option Server :=
  if cancelled then some (s.setTask t (.done .ok))
  else if next ≤ s.now then
    some ((s.join t).setTask t (.reaper false (nextTick next s.now s.period) (some (0, none))))
  else none

def beginShutdown (s : Server) : Server :=
  let t := s.tasks.length
  let listener := s.listening
  let s :=
    match listener with
    | some l => s.changeListener l fun listener => { listener with closed := true }
    | none => s
  let s := { s with listening := none }
  match s.reaper with
  | some r => { (s.cancelReaper r).addTask (.stopReaper listener r) with reaper := none }
  | none => (s.addTask (.closeAll listener none none)).join t

def releaseListener (s : Server) : Option Nat → Server
  | some l => s.changeListener l fun listener => { listener with released := true }
  | none => s

def closeFrom (s : Server) (t : Nat) (listener : Option Nat) (failure : Option ServerError)
    (place : Nat) : Option Server :=
  match s.registry[place]? with
  | none =>
      let s := { s with registry := [] }.releaseListener listener
      some
        (match failure with
        | none => s.finish t .ok
        | some e => s.finish t (.failed e))
  | some c => do
      let (call, s) ← s.beginClose c
      some (s.setTask t (.closeAll listener failure (some (place, call))))

def closeFailure (s : Server) (place : Nat) (failure : Option ServerError) :
    Failure → Option ServerError
  | none => failure
  | some e =>
      let peer :=
        match s.registry[place]?.bind fun c => s.connections[c]? with
        | some connection => connection.stream.peer.text
        | none => ""
      some (failure.getD (.shutdown (peer ++ ": " ++ e.message)))

def awaited? (s : Server) : Job → Option (Nat × Nat)
  | .refuse c call _ => some (c, call)
  | .broadcast _ (some (place, call)) => (s.registry[place]?).map (·, call)
  | .sendTo _ _ sending => sending
  | .send c call => some (c, call)
  | .close c call => some (c, call)
  | .reap _ (some (place, call)) => (s.registry[place]?).map (·, call)
  | .reaper _ _ (some (_, some (place, call))) => (s.registry[place]?).map (·, call)
  | .closeAll _ _ (some (place, call)) => (s.registry[place]?).map (·, call)
  | _ => none

def afterCall (s : Server) (t : Nat) (failure : Failure) : Job → Option Server
  | .refuse _ _ e => some (s.finish t (.failed e))
  | .broadcast payload (some (place, _)) =>
      match failure with
      | none => s.broadcastFrom t payload (place + 1)
      | some e =>
          (s.registry[place]?).map fun c => s.finish t (s.sendReply c (some e))
  | .sendTo _ _ (some (c, _)) => some (s.finish t (s.sendReply c failure))
  | .send _ _ => some (s.finish t (.returned failure))
  | .close _ _ => some (s.finish t (.returned failure))
  | .reap evicted (some (place, _)) => (s.evict place).reapFrom t (evicted + 1)
  | .reaper cancelled next (some (evicted, some (place, _))) =>
      (s.evict place).reaperFrom t cancelled next (evicted + 1)
  | .closeAll listener first (some (place, _)) =>
      s.closeFrom t listener (s.closeFailure place first failure) (place + 1)
  | _ => none

def proceed (s : Server) (t : Nat) : Job → Option Server
  | .register l c => if s.lock.isHeldBy t then s.register t l c else none
  | .broadcast payload none => if s.lock.isHeldBy t then s.broadcastFrom t payload 0 else none
  | .sendTo address payload none =>
      if s.lock.isHeldBy t then s.sendToFirst t address payload else none
  | .reap evicted none => if s.lock.isHeldBy t then s.reapFrom t evicted else none
  | .reaper cancelled next none => s.tick t cancelled next
  | .reaper cancelled next (some (evicted, none)) =>
      if s.lock.isHeldBy t then s.reaperFrom t cancelled next evicted else none
  | .stopReaper listener r =>
      match s.tasks[r]? with
      | some (.done _) => some ((s.join t).setTask t (.closeAll listener none none))
      | some .crashed =>
          -- `crashed` stands for what the runtime's `JoinError` displays of a panicked task.
          some ((s.join t).setTask t (.closeAll listener (some (.shutdown "reaper: crashed")) none))
      | _ => none
  | .closeAll listener failure none =>
      if s.lock.isHeldBy t then s.closeFrom t listener failure 0 else none
  | .count => if s.lock.isHeldBy t then some (s.finish t (.number s.registry.length)) else none
  | .list =>
      if s.lock.isHeldBy t then
        let infos := (s.registry.filterMap fun c => s.connections[c]?).map Connection.info
        some (s.finish t (.infos infos))
      else none
  | _ => none

/-- A task goes on if what it waits for has come about; a call that crashed crashes its task. -/
def resume (s : Server) (t : Nat) : Option Server := do
  let job ← s.tasks[t]?
  match s.awaited? job with
  | none => s.proceed t job
  | some (c, call) =>
      let connection ← s.connections[c]?
      match ← connection.ending? call with
      | .crashed => some (s.crash t)
      | .returned failure => s.afterCall t failure job

end Fanout.Server
