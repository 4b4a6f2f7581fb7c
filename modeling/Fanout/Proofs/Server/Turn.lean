import Fanout.Proofs.Server.Soundness

namespace Fanout.Server

def Returns (s : Server) (c call : Nat) (failure : Failure) : Prop :=
  ∃ x, s.connections[c]? = some x ∧ x.ending? call = some (.returned failure)

def Crashes (s : Server) (c call : Nat) : Prop :=
  ∃ x, s.connections[c]? = some x ∧ x.ending? call = some .crashed

def moveTask (s : Server) (t : Nat) (job job' : Job) : Server :=
  { s with
    lock := s.lock.moved t job.standing job'.standing
    tasks := s.tasks.set t job' }

def enterTask (s : Server) (job : Job) : Server :=
  { s with
    lock := s.lock.moved s.tasks.length .outside job.standing
    tasks := s.tasks ++ [job] }

/-- A pass over the registry arrives at a place, with what the call at the place before it returned.
-/
inductive Arrives (s : Server) (t : Nat) : Option (Nat × Nat) → Nat → Failure → Prop
  | first (held : s.lock.isHeldBy t = true) : Arrives s t none 0 none
  | next {place call c : Nat} {failure : Failure} (hp : s.registry[place]? = some c)
      (hr : s.Returns c call failure) : Arrives s t (some (place, call)) (place + 1) failure

/-- Before a sweep looks for the next dead connection, the one that it has closed is evicted. -/
inductive Cleared (s : Server) (t : Nat) : Option (Nat × Nat) → Server → Nat → Prop
  | first (held : s.lock.isHeldBy t = true) : Cleared s t none s 0
  | evict {place call c : Nat} {failure : Failure} (hp : s.registry[place]? = some c)
      (hr : s.Returns c call failure) : Cleared s t (some (place, call)) (s.evict place) 1

inductive Sweeper where
  | caller
  | reaper (cancelled : Bool) (next : Nat)

def Sweeper.job : Sweeper → Nat → Option (Nat × Nat) → Job
  | .caller, evicted, closing => .reap evicted closing
  | .reaper cancelled next, evicted, closing => .reaper cancelled next (some (evicted, closing))

def Sweeper.rest : Sweeper → Nat → Job
  | .caller, evicted => .done (.number evicted)
  | .reaper cancelled next, _ => .reaper cancelled next none

def shutdownReply : Option ServerError → Reply
  | none => .ok
  | some e => .failed e

/-- What a stretch of a task does to the rest of the server, and the job that it leaves to do. -/
inductive Work (s : Server) (t : Nat) : Job → Server → Job → Prop
  | acceptClosed {secs l : Nat} {deadline : Option Nat} (hl : s.isClosed l = true) :
      Work s t (.accept secs deadline l) s (.done (.failed .listenerClosed))
  | acceptExpired {secs l deadline : Nat} (hd : deadline ≤ s.now) :
      Work s t (.accept secs (some deadline) l) s (.done (.failed (.acceptTimeout secs)))
  | acceptFailed {secs l : Nat} {deadline : Option Nat} (reason : String) :
      Work s t (.accept secs deadline l) s (.done (.failed (.accept reason)))
  | acceptReset {secs l : Nat} {deadline : Option Nat} (pending : List Stream) (reason : String) :
      Work s t (.accept secs deadline l)
        (s.changeListener l fun listener => { listener with pending })
        (.done (.failed (.accept reason)))
  | acceptPeer {secs l : Nat} {deadline : Option Nat} {stream : Stream} {x : Connection}
      (pending : List Stream)
      (opened : Connection.ofStream stream s.config.settings (.ofMillis s.now) = .ok x) :
      Work s t (.accept secs deadline l)
        { s.changeListener l fun listener => { listener with pending } with
          connections := s.connections ++ [x] }
        (.register l s.connections.length)
  | enlist {l c : Nat} {x : Connection} (held : s.lock.isHeldBy t = true)
      (hl : s.isClosed l = false) (hx : s.connections[c]? = some x) :
      Work s t (.register l c)
        { s.countOn.setConnection c x.listen.1 with registry := s.registry ++ [c] }
        (.done (.accepted c))
  | refuse {l c : Nat} {x : Connection} (held : s.lock.isHeldBy t = true)
      (hl : s.isClosed l = true) (hx : s.connections[c]? = some x) :
      Work s t (.register l c) (s.countOn.setConnection c x.beginClose)
        (.refuse c x.calls.length .listenerClosed)
  | refused {c call : Nat} {e : ServerError} {failure : Failure} (hr : s.Returns c call failure) :
      Work s t (.refuse c call e) s (.done (.failed e))
  | broadcastNext {payload : List UInt8} {sending : Option (Nat × Nat)} {place c : Nat}
      {x : Connection} (ha : s.Arrives t sending place none) (hp : s.registry[place]? = some c)
      (hx : s.connections[c]? = some x) :
      Work s t (.broadcast payload sending) (s.setConnection c (x.beginSend payload))
        (.broadcast payload (some (place, x.calls.length)))
  | broadcastEnd {payload : List UInt8} {sending : Option (Nat × Nat)} {place : Nat}
      (ha : s.Arrives t sending place none) (hp : s.registry[place]? = none) :
      Work s t (.broadcast payload sending) s (.done .ok)
  | broadcastFailed {payload : List UInt8} {place call c : Nat} {e : ConnectionError}
      (hp : s.registry[place]? = some c) (hr : s.Returns c call (some e)) :
      Work s t (.broadcast payload (some (place, call))) s (.done (s.sendReply c (some e)))
  | findHost {address : String} {payload : List UInt8} {c : Nat} {x : Connection}
      (held : s.lock.isHeldBy t = true)
      (hf : (s.registry.find? fun c => s.hostOf c == address) = some c)
      (hx : s.connections[c]? = some x) :
      Work s t (.sendTo address payload none) (s.setConnection c (x.beginSend payload))
        (.sendTo address payload (some (c, x.calls.length)))
  | missHost {address : String} {payload : List UInt8} (held : s.lock.isHeldBy t = true)
      (hf : (s.registry.find? fun c => s.hostOf c == address) = none) :
      Work s t (.sendTo address payload none) s (.done (.failed (.clientNotFound address)))
  | sentTo {address : String} {payload : List UInt8} {c call : Nat} {failure : Failure}
      (hr : s.Returns c call failure) :
      Work s t (.sendTo address payload (some (c, call))) s (.done (s.sendReply c failure))
  | sent {c call : Nat} {failure : Failure} (hr : s.Returns c call failure) :
      Work s t (.send c call) s (.done (.returned failure))
  | closed {c call : Nat} {failure : Failure} (hr : s.Returns c call failure) :
      Work s t (.close c call) s (.done (.returned failure))
  | sweepNext {closing : Option (Nat × Nat)} {s₁ : Server} {more place c : Nat} {x : Connection}
      (sweeper : Sweeper) (evicted : Nat) (hs : s.Cleared t closing s₁ more)
      (hp : s₁.registry[place]? = some c) (hx : s.connections[c]? = some x)
      (hd : x.phase = .disconnected) :
      Work s t (sweeper.job evicted closing) (s₁.setConnection c x.beginClose)
        (sweeper.job (evicted + more) (some (place, x.calls.length)))
  | sweepEnd {closing : Option (Nat × Nat)} {s₁ : Server} {more : Nat} (sweeper : Sweeper)
      (evicted : Nat) (hs : s.Cleared t closing s₁ more)
      (clean : ∀ c ∈ s₁.registry, s₁.isConnected c = true) :
      Work s t (sweeper.job evicted closing) s₁ (sweeper.rest (evicted + more))
  | reaperEnd {next : Nat} : Work s t (.reaper true next none) s (.done .ok)
  | tick {next : Nat} (due : next ≤ s.now) :
      Work s t (.reaper false next none) s
        (.reaper false (nextTick next s.now s.period) (some (0, none)))
  | reaperStopped {listener : Option Nat} {r : Nat} {reply : Reply}
      (hr : s.tasks[r]? = some (.done reply)) :
      Work s t (.stopReaper listener r) s (.closeAll listener none none)
  | reaperCrashed {listener : Option Nat} {r : Nat} (hr : s.tasks[r]? = some .crashed) :
      Work s t (.stopReaper listener r) s
        (.closeAll listener (some (.shutdown "reaper: crashed")) none)
  | closeNext {listener : Option Nat} {first : Option ServerError} {closing : Option (Nat × Nat)}
      {place c : Nat} {failure : Failure} {x : Connection} (ha : s.Arrives t closing place failure)
      (hp : s.registry[place]? = some c) (hx : s.connections[c]? = some x) :
      Work s t (.closeAll listener first closing) (s.setConnection c x.beginClose)
        (.closeAll listener (s.closeFailure (place - 1) first failure)
          (some (place, x.calls.length)))
  | closeEnd {listener : Option Nat} {first : Option ServerError} {closing : Option (Nat × Nat)}
      {place : Nat} {failure : Failure} (ha : s.Arrives t closing place failure)
      (hp : s.registry[place]? = none) :
      Work s t (.closeAll listener first closing)
        ({ s with registry := [] }.releaseListener listener)
        (.done (shutdownReply (s.closeFailure (place - 1) first failure)))
  | count (held : s.lock.isHeldBy t = true) :
      Work s t .count s (.done (.number s.registry.length))
  | list (held : s.lock.isHeldBy t = true) :
      Work s t .list s
        (.done (.infos ((s.registry.filterMap fun c => s.connections[c]?).map Connection.info)))
  | crash {job : Job} {c call : Nat} (ha : s.awaited? job = some (c, call))
      (hc : s.Crashes c call) : Work s t job s .crashed

def Works (s : Server) (t : Nat) (s' : Server) : Prop :=
  ∃ job s₁ job', s.tasks[t]? = some job ∧ Work s t job s₁ job' ∧ s' = s₁.moveTask t job job'

def unlisten (s : Server) : Server :=
  match s.listening with
  | some l =>
      { s.changeListener l fun listener => { listener with closed := true } with listening := none }
  | none => { s with listening := none }

inductive Begins (s : Server) : Request → Server → Job → Prop
  | acceptNone (secs : Nat) (hl : s.listening = none) :
      Begins s (.accept secs) s (.done (.failed .listenerClosed))
  | accept {l : Nat} (secs : Nat) (hl : s.listening = some l) :
      Begins s (.accept secs) s (.accept secs (s.acceptDeadline secs) l)
  | broadcast (payload : List UInt8) : Begins s (.broadcast payload) s (.broadcast payload none)
  | sendTo (address : String) (payload : List UInt8) :
      Begins s (.sendTo address payload) s (.sendTo address payload none)
  | send {c : Nat} {x : Connection} (payload : List UInt8) (hg : s.isGiven c = true)
      (hx : s.connections[c]? = some x) :
      Begins s (.send c payload) (s.setConnection c (x.beginSend payload)) (.send c x.calls.length)
  | close {c : Nat} {x : Connection} (hg : s.isGiven c = true) (hx : s.connections[c]? = some x) :
      Begins s (.close c) (s.setConnection c x.beginClose) (.close c x.calls.length)
  | listen {c : Nat} {x : Connection} (hg : s.isGiven c = true) (hx : s.connections[c]? = some x) :
      Begins s (.listen c) (s.setConnection c x.listen.1) (.done (.returned x.listen.2))
  | reap : Begins s .reap s (.reap 0 none)
  | stopReaper {r : Nat} (hr : s.reaper = some r) :
      Begins s .shutdown { s.unlisten.cancelReaper r with reaper := none }
        (.stopReaper s.listening r)
  | closeAll (hr : s.reaper = none) :
      Begins s .shutdown s.unlisten (.closeAll s.listening none none)
  | count : Begins s .count s .count
  | list : Begins s .list s .list

def opened (s : Server) (address : SocketAddress) : Server :=
  { s with
    listeners := s.listeners ++ [{ address }]
    listening := some s.listeners.length }

def Action.task? : Action → Option Nat
  | .acceptPeer t | .acceptClosed t | .acceptExpired t | .acceptFailed t _ | .resume t => some t
  | _ => none

def Action.Starts (s : Server) : Action → Prop
  | .start port autoReap bound => ∃ address, (s.start port autoReap bound).2 = .ok address
  | _ => False

inductive Turn (behaviour : Behaviour) (s : Server) (a : Action) : Server → Prop
  | start (address : SocketAddress) (ha : a.Starts s) (hl : s.listening = none) :
      Turn behaviour s a (s.opened address)
  | startReaping (address : SocketAddress) (ha : a.Starts s) (hl : s.listening = none)
      (hr : s.reaper = none) : Turn behaviour s a (s.opened address).spawnReaper
  | replaceReaper {previous : Nat} (address : SocketAddress) (ha : a.Starts s)
      (hl : s.listening = none) (hr : s.reaper = some previous) :
      Turn behaviour s a ((s.opened address).spawnReaper.cancelReaper previous)
  | rest (ha : ¬ a.Starts s) : Turn behaviour s a s
  | subscribe (o : Observer) :
      Turn behaviour s a { s with feed := { s.feed with bus := s.feed.bus.subscribe o } }
  | begin {r : Request} {s₁ : Server} {job : Job} (ha : a = .begin r) (hb : Begins s r s₁ job) :
      Turn behaviour s a (s₁.enterTask job)
  | drop : Turn behaviour s a s.drop
  | connect (l : Nat) (stream : Stream) :
      Turn behaviour s a
        (s.changeListener l fun l => { l with pending := l.pending ++ [stream] })
  | work {t : Nat} {s' : Server} (ha : a.task? = some t) (hw : s.Works t s') :
      Turn behaviour s a s'
  | on {c : Nat} {act : Connection.Action} {x x' : Connection} {feed : ServerFeed}
      (ha : a = .on c act) (hx : s.connections[c]? = some x) (hcall : act.isCall = false)
      (hs : x.step (ServerFeed.tell behaviour c) act s.feed = some (x', feed)) :
      Turn behaviour s a { s.setConnection c x' with feed }
  | pass (ms : Nat) : Turn behaviour s a { s with now := s.now + ms }

variable {s s' s₁ : Server} {t c call : Nat} {job job' : Job} {reply : Reply}

theorem leave_eq_moved (h : s.Sound) (ht : s.tasks[t]? = some job) :
    s.lock.leave t = s.lock.moved t job.standing .outside := by
  cases hj : job.standing with
  | outside => exact h.lock.leave_of_outside (by simp [ht, hj])
  | waiting | holding => rfl

theorem finish_eq (h : s.Sound) (ht : s.tasks[t]? = some job) (hlock : s₁.lock = s.lock) :
    s₁.finish t reply = s₁.moveTask t job (.done reply) := by
  simp only [finish, leave, setTask, moveTask, hlock]
  rw [leave_eq_moved h ht]
  rfl

theorem crash_eq (h : s.Sound) (ht : s.tasks[t]? = some job) :
    s.crash t = s.moveTask t job .crashed := by
  simp only [crash, leave, setTask, moveTask]
  rw [leave_eq_moved h ht]
  rfl

theorem Work.works (hw : Work s t job s₁ job') (ht : s.tasks[t]? = some job)
    (hs : s' = s₁.moveTask t job job') : s.Works t s' :=
  ⟨job, s₁, job', ht, hw, hs⟩

theorem beginSend_eq_some {payload : List UInt8} {p : Nat × Server}
    (h : s.beginSend c payload = some p) :
    ∃ x, s.connections[c]? = some x ∧
      p = (x.calls.length, s.setConnection c (x.beginSend payload)) := by
  obtain ⟨x, hx, hp⟩ := Option.bind_eq_some_iff.mp h
  exact ⟨x, hx, (Option.some.inj hp).symm⟩

theorem beginClose_eq_some {p : Nat × Server} (h : s.beginClose c = some p) :
    ∃ x, s.connections[c]? = some x ∧ p = (x.calls.length, s.setConnection c x.beginClose) := by
  obtain ⟨x, hx, hp⟩ := Option.bind_eq_some_iff.mp h
  exact ⟨x, hx, (Option.some.inj hp).symm⟩

theorem isConnected_eq_false {x : Connection} (hx : s.connections[c]? = some x) :
    s.isConnected c = false ↔ x.phase = .disconnected := by
  simp [isConnected, hx, Connection.isConnected]

theorem works_acceptClosed (ha : s.acceptClosed t = some s') : s.Works t s' := by
  unfold acceptClosed at ha
  split at ha
  · rename_i secs deadline l ht
    split at ha
    · rename_i hl
      exact (Work.acceptClosed hl).works ht (Option.some.inj ha).symm
    · exact absurd ha (by simp)
  · exact absurd ha (by simp)

theorem works_acceptExpired (ha : s.acceptExpired t = some s') : s.Works t s' := by
  unfold acceptExpired at ha
  split at ha
  · rename_i secs deadline l ht
    obtain ⟨listener, -, ha⟩ := Option.bind_eq_some_iff.mp ha
    split at ha
    · rename_i hd
      exact (Work.acceptExpired hd.1).works ht (Option.some.inj ha).symm
    · exact absurd ha (by simp)
  · exact absurd ha (by simp)

theorem works_acceptFailed {reason : String} (ha : s.acceptFailed t reason = some s') :
    s.Works t s' := by
  unfold acceptFailed at ha
  split at ha
  · rename_i secs deadline l ht
    exact (Work.acceptFailed reason).works ht (Option.some.inj ha).symm
  · exact absurd ha (by simp)

theorem works_acceptPeer (ha : s.acceptPeer t = some s') : s.Works t s' := by
  unfold acceptPeer at ha
  split at ha
  · rename_i secs deadline l ht
    obtain ⟨listener, -, ha⟩ := Option.bind_eq_some_iff.mp ha
    split at ha
    · exact absurd ha (by simp)
    · rename_i stream pending _
      cases opened : Connection.ofStream stream s.config.settings (.ofMillis s.now) with
      | error reason =>
        simp only [changeListener, opened] at ha
        exact (Work.acceptReset pending reason).works ht (Option.some.inj ha).symm
      | ok x =>
        simp only [changeListener, opened] at ha
        exact (Work.acceptPeer pending opened).works ht (Option.some.inj ha).symm
  · exact absurd ha (by simp)

theorem works_register {l : Nat} (h : s.Sound) (ht : s.tasks[t]? = some (.register l c))
    (held : s.lock.isHeldBy t = true) (hr : s.register t l c = some s') : s.Works t s' := by
  obtain ⟨x, hx, hu⟩ := h.fits ht
  have hx' : s.countOn.connections[c]? = some x := hx
  unfold register at hr
  dsimp only at hr
  split at hr
  · rename_i hl
    obtain ⟨p, hp, hr⟩ := Option.bind_eq_some_iff.mp hr
    obtain ⟨x', hx', rfl⟩ := beginClose_eq_some hp
    exact (Work.refuse held hl hx').works ht (Option.some.inj hr).symm
  · rename_i hl
    obtain ⟨x', hx₁, hr⟩ := Option.bind_eq_some_iff.mp hr
    obtain rfl := Option.some.inj (hx'.symm.trans hx₁)
    simp only [(hu.listen (h.connections hx)).1, Option.some.injEq] at hr
    have hclosed : s.isClosed l = false := Bool.eq_false_iff.mpr hl
    exact (Work.enlist held hclosed hx).works ht (hr.symm.trans (finish_eq h ht rfl))

theorem works_broadcastFrom {payload : List UInt8} {sending : Option (Nat × Nat)} {place : Nat}
    (h : s.Sound) (ht : s.tasks[t]? = some (.broadcast payload sending))
    (ha : s.Arrives t sending place none) (hb : s.broadcastFrom t payload place = some s') :
    s.Works t s' := by
  unfold broadcastFrom at hb
  split at hb
  · rename_i hp
    exact (Work.broadcastEnd ha hp).works ht ((Option.some.inj hb).symm.trans (finish_eq h ht rfl))
  · rename_i c hp
    obtain ⟨p, hbegin, hb⟩ := Option.bind_eq_some_iff.mp hb
    obtain ⟨x, hx, rfl⟩ := beginSend_eq_some hbegin
    refine (Work.broadcastNext ha hp hx).works ht ((Option.some.inj hb).symm.trans ?_)
    cases sending <;> rfl

theorem works_sendToFirst {address : String} {payload : List UInt8} (h : s.Sound)
    (ht : s.tasks[t]? = some (.sendTo address payload none)) (held : s.lock.isHeldBy t = true)
    (hs : s.sendToFirst t address payload = some s') : s.Works t s' := by
  unfold sendToFirst at hs
  split at hs
  · rename_i hf
    exact (Work.missHost held hf).works ht ((Option.some.inj hs).symm.trans (finish_eq h ht rfl))
  · rename_i c hf
    obtain ⟨p, hbegin, hs⟩ := Option.bind_eq_some_iff.mp hs
    obtain ⟨x, hx, rfl⟩ := beginSend_eq_some hbegin
    exact (Work.findHost held hf hx).works ht (Option.some.inj hs).symm

theorem works_closeFrom {listener : Option Nat} {first : Option ServerError}
    {closing : Option (Nat × Nat)} {place : Nat} {failure : Failure} (h : s.Sound)
    (ht : s.tasks[t]? = some (.closeAll listener first closing))
    (ha : s.Arrives t closing place failure)
    (hc : s.closeFrom t listener (s.closeFailure (place - 1) first failure) place = some s') :
    s.Works t s' := by
  unfold closeFrom at hc
  split at hc
  · rename_i hp
    refine (Work.closeEnd ha hp).works ht ((Option.some.inj hc).symm.trans ?_)
    have hlock : ({ s with registry := [] }.releaseListener listener).lock = s.lock := by
      cases listener <;> rfl
    cases s.closeFailure (place - 1) first failure <;> exact finish_eq h ht hlock
  · rename_i c hp
    obtain ⟨p, hbegin, hc⟩ := Option.bind_eq_some_iff.mp hc
    obtain ⟨x, hx, rfl⟩ := beginClose_eq_some hbegin
    refine (Work.closeNext ha hp hx).works ht ((Option.some.inj hc).symm.trans ?_)
    cases closing <;> rfl

theorem sweep_eq_some {closing : Option (Nat × Nat)} (h : s.sweep = some (closing, s')) :
    (closing = none ∧ s' = s ∧ ∀ c ∈ s.registry, s.isConnected c = true) ∨
      ∃ place c x, closing = some (place, x.calls.length) ∧ s.registry[place]? = some c ∧
        s.connections[c]? = some x ∧ x.phase = .disconnected ∧
        s' = s.setConnection c x.beginClose := by
  unfold sweep at h
  split at h
  · rename_i hf
    obtain ⟨rfl, rfl⟩ := Prod.mk.inj (Option.some.inj h)
    exact .inl ⟨rfl, rfl, by simpa using hf⟩
  · rename_i place hf
    obtain ⟨c, hp, h⟩ := Option.bind_eq_some_iff.mp h
    obtain ⟨p, hbegin, h⟩ := Option.bind_eq_some_iff.mp h
    obtain ⟨x, hx, rfl⟩ := beginClose_eq_some hbegin
    obtain ⟨rfl, rfl⟩ := Prod.mk.inj (Option.some.inj h)
    obtain ⟨hlt, hdead, -⟩ := List.findIdx?_eq_some_iff_getElem.mp hf
    obtain ⟨_, rfl⟩ := List.getElem?_eq_some_iff.mp hp
    exact .inr ⟨place, _, x, rfl, hp, hx, (isConnected_eq_false hx).mp (by simpa using hdead), rfl⟩

theorem Cleared.frame {closing : Option (Nat × Nat)} {more : Nat}
    (h : s.Cleared t closing s₁ more) :
    s₁.lock = s.lock ∧ s₁.tasks = s.tasks ∧ s₁.connections = s.connections := by
  cases h <;> exact ⟨rfl, rfl, rfl⟩

theorem works_reapFrom {closing : Option (Nat × Nat)} {evicted more : Nat} (h : s.Sound)
    (ht : s.tasks[t]? = some (.reap evicted closing)) (hs : s.Cleared t closing s₁ more)
    (hr : s₁.reapFrom t (evicted + more) = some s') : s.Works t s' := by
  obtain ⟨hlock, htasks, hconns⟩ := hs.frame
  obtain ⟨⟨closing', s₂⟩, hsweep, hgo⟩ := Option.bind_eq_some_iff.mp hr
  rcases sweep_eq_some hsweep with ⟨rfl, rfl, clean⟩ | ⟨place, c, x, rfl, hp, hx, hd, rfl⟩
  · exact (Work.sweepEnd .caller evicted hs clean).works ht
      ((Option.some.inj hgo).symm.trans (finish_eq h ht hlock))
  · refine (Work.sweepNext .caller evicted hs hp (hconns ▸ hx) hd).works ht
      ((Option.some.inj hgo).symm.trans ?_)
    cases closing <;> rfl

theorem works_reaperFrom {cancelled : Bool} {next evicted more : Nat}
    {closing : Option (Nat × Nat)}
    (ht : s.tasks[t]? = some (.reaper cancelled next (some (evicted, closing))))
    (hs : s.Cleared t closing s₁ more)
    (hr : s₁.reaperFrom t cancelled next (evicted + more) = some s') : s.Works t s' := by
  obtain ⟨hlock, htasks, hconns⟩ := hs.frame
  obtain ⟨⟨closing', s₂⟩, hsweep, hgo⟩ := Option.bind_eq_some_iff.mp hr
  rcases sweep_eq_some hsweep with ⟨rfl, rfl, clean⟩ | ⟨place, c, x, rfl, hp, hx, hd, rfl⟩
  · refine (Work.sweepEnd (.reaper cancelled next) evicted hs clean).works ht
      ((Option.some.inj hgo).symm.trans ?_)
    cases closing <;> rfl
  · refine (Work.sweepNext (.reaper cancelled next) evicted hs hp (hconns ▸ hx) hd).works ht
      ((Option.some.inj hgo).symm.trans ?_)
    cases closing <;> rfl

theorem works_afterCall {failure : Failure} (h : s.Sound) (ht : s.tasks[t]? = some job)
    (ha : s.awaited? job = some (c, call)) (hr : s.Returns c call failure)
    (hs : s.afterCall t failure job = some s') : s.Works t s' := by
  have ends {reply : Reply} (hw : Work s t job s (.done reply))
      (he : some (s.finish t reply) = some s') : s.Works t s' :=
    hw.works ht ((Option.some.inj he).symm.trans (finish_eq h ht rfl))
  have reached {place call' : Nat} (hp : s.registry[place]?.map (·, call') = some (c, call)) :
      s.registry[place]? = some c ∧ call' = call := by
    obtain ⟨c', hc, heq⟩ := Option.map_eq_some_iff.mp hp
    obtain ⟨rfl, rfl⟩ := Prod.mk.inj heq
    exact ⟨hc, rfl⟩
  unfold awaited? at ha
  split at ha
  · obtain ⟨rfl, rfl⟩ := Prod.mk.inj (Option.some.inj ha)
    exact ends (.refused hr) hs
  · obtain ⟨hp, rfl⟩ := reached ha
    cases failure with
    | none => exact works_broadcastFrom h ht (.next hp hr) hs
    | some e =>
      simp only [afterCall, hp, Option.map_some] at hs
      exact ends (.broadcastFailed hp hr) hs
  · subst ha
    exact ends (.sentTo hr) hs
  · obtain ⟨rfl, rfl⟩ := Prod.mk.inj (Option.some.inj ha)
    exact ends (.sent hr) hs
  · obtain ⟨rfl, rfl⟩ := Prod.mk.inj (Option.some.inj ha)
    exact ends (.closed hr) hs
  · obtain ⟨hp, rfl⟩ := reached ha
    exact works_reapFrom h ht (.evict hp hr) hs
  · obtain ⟨hp, rfl⟩ := reached ha
    exact works_reaperFrom ht (.evict hp hr) hs
  · obtain ⟨hp, rfl⟩ := reached ha
    exact works_closeFrom h ht (.next hp hr) hs
  · exact absurd ha (by simp)

theorem works_proceed (h : s.Sound) (ht : s.tasks[t]? = some job)
    (hs : s.proceed t job = some s') : s.Works t s' := by
  have granted {p : Prop} [Decidable p] {x : Option Server}
      (hx : (if p then x else none) = some s') : p ∧ x = some s' := by
    split at hx
    · exact ⟨‹p›, hx⟩
    · exact absurd hx (by simp)
  unfold proceed at hs
  split at hs
  · obtain ⟨held, hs⟩ := granted hs
    exact works_register h ht held hs
  · obtain ⟨held, hs⟩ := granted hs
    exact works_broadcastFrom h ht (.first held) hs
  · obtain ⟨held, hs⟩ := granted hs
    exact works_sendToFirst h ht held hs
  · obtain ⟨held, hs⟩ := granted hs
    exact works_reapFrom h ht (.first held) hs
  · unfold tick at hs
    split at hs
    · rename_i cancelled next hc
      subst hc
      exact Work.reaperEnd.works ht (Option.some.inj hs).symm
    · rename_i cancelled next hc
      obtain rfl : cancelled = false := Bool.eq_false_iff.mpr hc
      obtain ⟨due, hs⟩ := granted hs
      exact (Work.tick due).works ht (Option.some.inj hs).symm
  · obtain ⟨held, hs⟩ := granted hs
    exact works_reaperFrom ht (.first held) hs
  · split at hs
    · rename_i hr
      exact (Work.reaperStopped hr).works ht (Option.some.inj hs).symm
    · rename_i hr
      exact (Work.reaperCrashed hr).works ht (Option.some.inj hs).symm
    · exact absurd hs (by simp)
  · obtain ⟨held, hs⟩ := granted hs
    exact works_closeFrom h ht (.first held) hs
  · obtain ⟨held, hs⟩ := granted hs
    exact (Work.count held).works ht ((Option.some.inj hs).symm.trans (finish_eq h ht rfl))
  · obtain ⟨held, hs⟩ := granted hs
    exact (Work.list held).works ht ((Option.some.inj hs).symm.trans (finish_eq h ht rfl))
  · exact absurd hs (by simp)

theorem works_resume (h : s.Sound) (hs : s.resume t = some s') : s.Works t s' := by
  obtain ⟨job, ht, hs⟩ := Option.bind_eq_some_iff.mp hs
  split at hs
  · exact works_proceed h ht hs
  · rename_i c call ha
    obtain ⟨x, hx, hs⟩ := Option.bind_eq_some_iff.mp hs
    obtain ⟨ending, he, hs⟩ := Option.bind_eq_some_iff.mp hs
    cases ending with
    | crashed =>
      exact (Work.crash ha ⟨x, hx, he⟩).works ht ((Option.some.inj hs).symm.trans (crash_eq h ht))
    | returned failure => exact works_afterCall h ht ha ⟨x, hx, he⟩ hs

theorem turn_start {behaviour : Behaviour} {port : UInt16} {autoReap : Bool}
    {bound : Except String SocketAddress} :
    Turn behaviour s (.start port autoReap bound) (s.start port autoReap bound).1 := by
  have fails (e : ServerError) (he : s.start port autoReap bound = (s, .error e)) :
      Turn behaviour s (.start port autoReap bound) (s.start port autoReap bound).1 := by
    rw [he]
    exact .rest (by simp [Action.Starts, he])
  have starts {s₁ : Server} {address : SocketAddress}
      (he : s.start port autoReap bound = (s₁, .ok address)) :
      Action.Starts s (.start port autoReap bound) := ⟨address, by rw [he]⟩
  cases hv : s.config.validate with
  | error e => exact fails (.config e) (by simp [start, hv])
  | ok =>
    cases hl : s.listening with
    | some l => exact fails .alreadyStarted (by simp [start, hv, isListening, hl])
    | none =>
      cases bound with
      | error reason =>
        exact fails (.setup { ip := s.config.bindAddress, port } reason)
          (by simp [start, hv, isListening, hl])
      | ok address =>
        cases autoReap with
        | false =>
          have he : s.start port false (.ok address) = (s.opened address, .ok address) := by
            simp [start, hv, isListening, hl, opened]
          rw [he]
          exact .start address (starts he) hl
        | true =>
          cases hr : s.reaper with
          | none =>
            have he : s.start port true (.ok address) =
                ((s.opened address).spawnReaper, .ok address) := by
              simp [start, hv, isListening, hl, hr, opened]
            rw [he]
            exact .startReaping address (starts he) hl hr
          | some previous =>
            have he : s.start port true (.ok address) =
                ((s.opened address).spawnReaper.cancelReaper previous, .ok address) := by
              simp [start, hv, isListening, hl, hr, opened]
            rw [he]
            exact .replaceReaper address (starts he) hl hr

theorem begins_shutdown :
    ∃ s₁ job, Begins s .shutdown s₁ job ∧ s.beginShutdown = s₁.enterTask job := by
  cases hr : s.reaper with
  | some r =>
    refine ⟨_, _, .stopReaper hr, ?_⟩
    cases hl : s.listening <;> simp only [beginShutdown, unlisten, changeListener, hl, hr] <;> rfl
  | none =>
    refine ⟨_, _, .closeAll hr, ?_⟩
    cases hl : s.listening <;> simp only [beginShutdown, unlisten, changeListener, hl, hr] <;> rfl

theorem begins_of_begin {r : Request} (hb : s.begin r = some s') :
    ∃ s₁ job, Begins s r s₁ job ∧ s' = s₁.enterTask job := by
  cases r with
  | accept secs =>
    cases hl : s.listening with
    | none =>
      simp only [begin, beginAccept, hl, Option.some.injEq] at hb
      exact ⟨_, _, .acceptNone secs hl, hb.symm⟩
    | some l =>
      simp only [begin, beginAccept, hl, Option.some.injEq] at hb
      exact ⟨_, _, .accept secs hl, hb.symm⟩
  | broadcast payload => exact ⟨_, _, .broadcast payload, (Option.some.inj hb).symm⟩
  | sendTo address payload => exact ⟨_, _, .sendTo address payload, (Option.some.inj hb).symm⟩
  | send c payload =>
    simp only [begin] at hb
    split at hb
    · rename_i hg
      obtain ⟨p, hp, hb⟩ := Option.bind_eq_some_iff.mp hb
      obtain ⟨x, hx, rfl⟩ := beginSend_eq_some hp
      exact ⟨_, _, .send payload hg hx, (Option.some.inj hb).symm⟩
    · exact absurd hb (by simp)
  | close c =>
    simp only [begin] at hb
    split at hb
    · rename_i hg
      obtain ⟨p, hp, hb⟩ := Option.bind_eq_some_iff.mp hb
      obtain ⟨x, hx, rfl⟩ := beginClose_eq_some hp
      exact ⟨_, _, .close hg hx, (Option.some.inj hb).symm⟩
    · exact absurd hb (by simp)
  | listen c =>
    simp only [begin] at hb
    split at hb
    · rename_i hg
      obtain ⟨x, hx, hb⟩ := Option.bind_eq_some_iff.mp hb
      exact ⟨_, _, .listen hg hx, (Option.some.inj hb).symm⟩
    · exact absurd hb (by simp)
  | reap => exact ⟨_, _, .reap, (Option.some.inj hb).symm⟩
  | shutdown =>
    obtain ⟨s₁, job, hbegins, heq⟩ := begins_shutdown (s := s)
    exact ⟨s₁, job, hbegins, (Option.some.inj hb).symm.trans heq⟩
  | count => exact ⟨_, _, .count, (Option.some.inj hb).symm⟩
  | list => exact ⟨_, _, .list, (Option.some.inj hb).symm⟩

theorem isAborted_iff :
    s.isAborted = true ↔ ∃ (c : Nat) (x : Connection), s.connections[c]? = some x ∧
      x.receiver = .ended .aborted := by
  simp only [isAborted, List.any_eq_true, beq_iff_eq]
  constructor
  · intro ⟨x, hm, hr⟩
    obtain ⟨c, hc⟩ := List.mem_iff_getElem?.mp hm
    exact ⟨c, x, hc, hr⟩
  · intro ⟨c, x, hx, hr⟩
    exact ⟨x, List.mem_of_getElem? hx, hr⟩

theorem isAborted_eq_false :
    s.isAborted = false ↔
      ∀ (c : Nat) (x : Connection), s.connections[c]? = some x → x.receiver ≠ .ended .aborted := by
  rw [← Bool.not_eq_true, isAborted_iff]
  simp only [not_exists, not_and, ne_eq]

theorem isAborted_set {x x' : Connection} (present : s.isAborted = false)
    (hx : s.connections[c]? = some x) (hc : s'.connections = s.connections.set c x') :
    s'.isAborted = true ↔ x'.receiver = .ended .aborted := by
  have hat : s'.connections[c]? = some x' :=
    hc ▸ (getElem?_set_eq_some hx).mpr (.inl ⟨rfl, rfl⟩)
  refine ⟨fun h => ?_, fun h => isAborted_iff.mpr ⟨c, x', hat, h⟩⟩
  obtain ⟨d, y, hy, hend⟩ := isAborted_iff.mp h
  rw [hc] at hy
  rcases (getElem?_set_eq_some hx).mp hy with ⟨-, rfl⟩ | ⟨-, hold⟩
  · exact hend
  · exact absurd hend (isAborted_eq_false.mp present d y hold)

theorem present_set {x x' : Connection} (present : s.isAborted = false)
    (hx : s.connections[c]? = some x)
    (hr : x.receiver ≠ .ended .aborted → x'.receiver ≠ .ended .aborted) :
    (s.setConnection c x').isAborted = false := by
  rw [← Bool.not_eq_true, isAborted_set present hx rfl]
  exact hr (isAborted_eq_false.mp present c x hx)

theorem setConnection_self {x : Connection} (hx : s.connections[c]? = some x) :
    s.setConnection c x = s := by
  obtain ⟨hlt, rfl⟩ := List.getElem?_eq_some_iff.mp hx
  simp only [setConnection, List.set_getElem_self]

theorem present_of_step {behaviour : Behaviour} {a : Action} (h : s.step behaviour a = some s') :
    s.isAborted = false := by
  unfold step at h
  split at h
  · exact absurd h (by simp)
  · rename_i hpresent
    exact Bool.eq_false_iff.mpr hpresent

theorem on_of_step {behaviour : Behaviour} {act : Connection.Action}
    (h : s.step behaviour (.on c act) = some s') :
    ∃ x x' feed, s.connections[c]? = some x ∧
      x.step (ServerFeed.tell behaviour c) act s.feed = some (x', feed) ∧
      s' = { s.setConnection c x' with feed } := by
  unfold step at h
  split at h
  · exact absurd h nofun
  · dsimp only at h
    split at h
    · exact absurd h nofun
    · obtain ⟨x, hx, h⟩ := Option.bind_eq_some_iff.mp h
      obtain ⟨⟨x', feed⟩, hstep, h⟩ := Option.bind_eq_some_iff.mp h
      exact ⟨x, x', feed, hx, hstep, (Option.some.inj h).symm⟩

theorem Sound.turn_of_step {behaviour : Behaviour} {a : Action} (h : s.Sound)
    (hs : s.step behaviour a = some s') : Turn behaviour s a s' := by
  have granted {p : Prop} [Decidable p] {x : Server}
      (hx : (if p then none else some x) = some s') : s' = x := by
    split at hx
    · exact absurd hx (by simp)
    · exact (Option.some.inj hx).symm
  unfold step at hs
  split at hs
  · exact absurd hs (by simp)
  · cases a with
    | start port autoReap bound => exact granted hs ▸ turn_start
    | subscribe o => exact granted hs ▸ .subscribe o
    | begin r =>
      dsimp only at hs
      split at hs
      · exact absurd hs (by simp)
      · obtain ⟨s₁, job, hb, rfl⟩ := begins_of_begin hs
        exact .begin rfl hb
    | drop => exact granted hs ▸ .drop
    | connect l stream =>
      dsimp only at hs
      split at hs
      · exact Option.some.inj hs ▸ .connect l stream
      · exact absurd hs (by simp)
    | acceptPeer t => exact .work rfl (works_acceptPeer hs)
    | acceptClosed t => exact .work rfl (works_acceptClosed hs)
    | acceptExpired t => exact .work rfl (works_acceptExpired hs)
    | acceptFailed t reason => exact .work rfl (works_acceptFailed hs)
    | resume t => exact .work rfl (works_resume h hs)
    | on c act =>
      dsimp only at hs
      split at hs
      · exact absurd hs (by simp)
      · rename_i hcall
        obtain ⟨x, hx, hs⟩ := Option.bind_eq_some_iff.mp hs
        obtain ⟨⟨x', feed⟩, hstep, hs⟩ := Option.bind_eq_some_iff.mp hs
        exact Option.some.inj hs ▸ .on rfl hx (Bool.eq_false_iff.mpr hcall) hstep
    | pass ms => exact Option.some.inj hs ▸ .pass ms

end Fanout.Server
