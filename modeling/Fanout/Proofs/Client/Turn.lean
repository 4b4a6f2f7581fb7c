import Fanout.Client.Step
import Fanout.Proofs.Connection.Turn
import Fanout.Proofs.Lock.Standing

namespace Fanout.Client

def Returns (s : Client) (c call : Nat) (failure : Failure) : Prop :=
  ∃ x, s.connections[c]? = some x ∧ x.ending? call = some (.returned failure)

def Crashes (s : Client) (c call : Nat) : Prop :=
  ∃ x, s.connections[c]? = some x ∧ x.ending? call = some .crashed

def added (s : Client) (x : Connection) : Client :=
  { s with connections := s.connections ++ [x] }

def withSlot (s : Client) (slot : Option Nat) : Client :=
  { s with slot }

def replyTo (wrap : ConnectionError → ClientError) : Failure → ClientReply
  | none => .ok
  | some e => .failed (wrap e)

def listenError (address : String) (e : ConnectionError) : ClientError :=
  .connect address e.message

/-- What a stretch of a task does to the rest of the client, and the job that it leaves to do. -/
inductive Work (s : Client) : ClientJob → Client → ClientJob → Prop
  | connectFailed {address : String} {deadline : Option Nat} (reason : String) :
      Work s (.connect address deadline) s (.done (.failed (.connect address reason)))
  | connectExpired {address : String} {deadline : Nat} (due : deadline ≤ s.now) :
      Work s (.connect address (some deadline)) s
        (.done (.failed (.connectTimeout address s.config.connectTimeoutSecs.toNat)))
  | lose {address : String} {deadline : Option Nat} {stream : Stream} {x : Connection}
      (opened : Connection.ofStream stream s.config.settings (.ofMillis s.now) = .ok x)
      (hc : (s.added x).isConnected = true) :
      Work s (.connect address deadline) (s.added x.beginClose)
        (.discard s.connections.length x.calls.length)
  | first {address : String} {deadline : Option Nat} {stream : Stream} {x : Connection}
      (opened : Connection.ofStream stream s.config.settings (.ofMillis s.now) = .ok x)
      (hslot : s.slot = none) :
      Work s (.connect address deadline)
        ((s.added x.listen.1).withSlot (some s.connections.length))
        (.done (replyTo (listenError address) x.listen.2))
  | supersede {address : String} {deadline : Option Nat} {stream : Stream} {x y : Connection}
      {stale : Nat}
      (opened : Connection.ofStream stream s.config.settings (.ofMillis s.now) = .ok x)
      (hc : (s.added x).isConnected = false) (hslot : s.slot = some stale)
      (hy : (s.added x).connections[stale]? = some y) :
      Work s (.connect address deadline)
        (((s.added x).setConnection stale y.beginClose).withSlot (some s.connections.length))
        (.replace address s.connections.length stale y.calls.length)
  | discarded {c call : Nat} {failure : Failure} (hr : s.Returns c call failure) :
      Work s (.discard c call) s (.done (.failed .alreadyConnected))
  | replaced {address : String} {c stale call : Nat} {failure : Failure} {x : Connection}
      (hr : s.Returns stale call failure) (hx : s.connections[c]? = some x) :
      Work s (.replace address c stale call) (s.setConnection c x.listen.1)
        (.done (replyTo (listenError address) x.listen.2))
  | sent {c call : Nat} {failure : Failure} (hr : s.Returns c call failure) :
      Work s (.send c call) s (.done (replyTo .send failure))
  | closed {c call : Nat} {failure : Failure} (hr : s.Returns c call failure) :
      Work s (.close c call) s (.done (replyTo .close failure))
  | crash {job : ClientJob} {c call : Nat} (ha : awaited? job = some (c, call))
      (hc : s.Crashes c call) : Work s job s .crashed

def Works (s : Client) (t : Nat) (s' : Client) : Prop :=
  ∃ job s₁ job', s.tasks[t]? = some job ∧ Work s job s₁ job' ∧ s' = s₁.setTask t job'

inductive Begins (s : Client) : Request → Client → ClientJob → Prop
  | misconfigured {ip : String} {port : UInt16} (e : ConfigError) :
      Begins s (.connect ip port) s (.done (.failed (.config e)))
  | already {ip : String} {port : UInt16} (hc : s.isConnected = true) :
      Begins s (.connect ip port) s (.done (.failed .alreadyConnected))
  | connect {ip : String} {port : UInt16} (hc : s.isConnected = false) :
      Begins s (.connect ip port) s (.connect (target ip port) s.connectDeadline)
  | sendNowhere {payload : List UInt8} (hslot : s.slot = none) :
      Begins s (.send payload) s (.done (.failed .notConnected))
  | send {payload : List UInt8} {c : Nat} {x : Connection} (hslot : s.slot = some c)
      (hx : s.connections[c]? = some x) :
      Begins s (.send payload) (s.setConnection c (x.beginSend payload)) (.send c x.calls.length)
  | closeNothing (hslot : s.slot = none) : Begins s .close s (.done .ok)
  | close {c : Nat} {x : Connection} (hslot : s.slot = some c)
      (hx : s.connections[c]? = some x) :
      Begins s .close ((s.setConnection c x.beginClose).withSlot none) (.close c x.calls.length)

def Action.task? : Action → Option Nat
  | .connected t _ | .connectFailed t _ | .connectExpired t | .resume t => some t
  | _ => none

inductive Turn (behaviour : Behaviour) (s : Client) (a : Action) : Client → Prop
  | subscribe (o : Observer) (ha : a = .subscribe o) :
      Turn behaviour s a { s with feed := { s.feed with bus := s.feed.bus.subscribe o } }
  | begin {r : Request} {s₁ : Client} {job : ClientJob} (ha : a = .begin r)
      (hb : Begins s r s₁ job) : Turn behaviour s a (s₁.addTask job)
  | work {t : Nat} {s' : Client} (ha : a.task? = some t) (hw : s.Works t s') : Turn behaviour s a s'
  | on {c : Nat} {act : Connection.Action} {x x' : Connection} {feed : ClientFeed}
      (ha : a = .on c act) (hx : s.connections[c]? = some x) (hcall : act.isCall = false)
      (hs : x.step (s.tell behaviour c) act s.feed = some (x', feed)) :
      Turn behaviour s a { s.setConnection c x' with feed }
  | pass (ms : Nat) (ha : a = .pass ms) : Turn behaviour s a { s with now := s.now + ms }

variable {behaviour : Behaviour} {s s' s₁ : Client} {t c call : Nat} {job job' : ClientJob}
  {x : Connection} {address : String} {deadline : Option Nat}

theorem Work.works (hw : Work s job s₁ job') (ht : s.tasks[t]? = some job)
    (hs : s' = s₁.setTask t job') : s.Works t s' :=
  ⟨job, s₁, job', ht, hw, hs⟩

theorem beginSend_eq_some {payload : List UInt8} {p : Nat × Client}
    (h : s.beginSend c payload = some p) :
    ∃ x, s.connections[c]? = some x ∧
      p = (x.calls.length, s.setConnection c (x.beginSend payload)) := by
  obtain ⟨x, hx, hp⟩ := Option.bind_eq_some_iff.mp h
  exact ⟨x, hx, (Option.some.inj hp).symm⟩

theorem beginClose_eq_some {p : Nat × Client} (h : s.beginClose c = some p) :
    ∃ x, s.connections[c]? = some x ∧ p = (x.calls.length, s.setConnection c x.beginClose) := by
  obtain ⟨x, hx, hp⟩ := Option.bind_eq_some_iff.mp h
  exact ⟨x, hx, (Option.some.inj hp).symm⟩

theorem startListening_eq_some (h : s.startListening t address c = some s') :
    ∃ x, s.connections[c]? = some x ∧
      s' = (s.setConnection c x.listen.1).setTask t
        (.done (replyTo (listenError address) x.listen.2)) := by
  obtain ⟨x, hx, hs⟩ := Option.bind_eq_some_iff.mp h
  refine ⟨x, hx, ?_⟩
  dsimp only at hs
  split at hs
  · rename_i hf
    rw [hf]
    exact (Option.some.inj hs).symm
  · rename_i e hf
    rw [hf]
    exact (Option.some.inj hs).symm

theorem setConnection_added (x y : Connection) :
    (s.added x).setConnection s.connections.length y = s.added y := by
  simp [added, setConnection]

theorem works_install {stream : Stream} (ht : s.tasks[t]? = some (.connect address deadline))
    (opened : Connection.ofStream stream s.config.settings (.ofMillis s.now) = .ok x)
    (hs : (s.added x).install t address s.connections.length = some s') : s.Works t s' := by
  have hnew : (s.added x).connections[s.connections.length]? = some x :=
    getElem?_concat_eq_some.mpr (.inl ⟨rfl, rfl⟩)
  unfold install at hs
  split at hs
  · rename_i hc
    obtain ⟨p, hbegin, hs⟩ := Option.bind_eq_some_iff.mp hs
    obtain ⟨y, hy, rfl⟩ := beginClose_eq_some hbegin
    obtain rfl := Option.some.inj (hnew.symm.trans hy)
    rw [setConnection_added] at hs
    exact (Work.lose opened hc).works ht (Option.some.inj hs).symm
  · rename_i hc
    dsimp only at hs
    split at hs
    · rename_i hslot
      obtain ⟨y, hy, rfl⟩ := startListening_eq_some hs
      obtain rfl := Option.some.inj (hnew.symm.trans hy)
      refine (Work.first opened hslot).works ht ?_
      rw [← setConnection_added x x.listen.1]
      rfl
    · rename_i stale hslot
      obtain ⟨p, hbegin, hs⟩ := Option.bind_eq_some_iff.mp hs
      obtain ⟨y, hy, rfl⟩ := beginClose_eq_some hbegin
      exact (Work.supersede opened (Bool.eq_false_iff.mpr hc) hslot hy).works ht
        (Option.some.inj hs).symm

theorem works_connected {stream : Stream} (h : s.connected t stream = some s') : s.Works t s' := by
  unfold connected at h
  split at h
  · rename_i ht
    split at h
    · rename_i reason _
      exact (Work.connectFailed reason).works ht (Option.some.inj h).symm
    · rename_i opened
      exact works_install ht opened h
  · exact absurd h (by simp)

theorem works_connectFailed {reason : String} (h : s.connectFailed t reason = some s') :
    s.Works t s' := by
  unfold Client.connectFailed at h
  split at h
  · rename_i ht
    exact (Work.connectFailed reason).works ht (Option.some.inj h).symm
  · exact absurd h (by simp)

theorem works_connectExpired (h : s.connectExpired t = some s') : s.Works t s' := by
  unfold Client.connectExpired at h
  split at h
  · rename_i ht
    split at h
    · rename_i due
      exact (Work.connectExpired due).works ht (Option.some.inj h).symm
    · exact absurd h (by simp)
  · exact absurd h (by simp)

theorem works_afterCall {failure : Failure} (ht : s.tasks[t]? = some job)
    (ha : awaited? job = some (c, call)) (hr : s.Returns c call failure)
    (h : s.afterCall t failure job = some s') : s.Works t s' := by
  unfold awaited? at ha
  split at ha
  · obtain ⟨rfl, rfl⟩ := Prod.mk.inj (Option.some.inj ha)
    exact (Work.discarded hr).works ht (Option.some.inj h).symm
  · obtain ⟨rfl, rfl⟩ := Prod.mk.inj (Option.some.inj ha)
    obtain ⟨x, hx, rfl⟩ := startListening_eq_some h
    exact (Work.replaced hr hx).works ht rfl
  · obtain ⟨rfl, rfl⟩ := Prod.mk.inj (Option.some.inj ha)
    refine (Work.sent hr).works ht ?_
    cases failure <;> exact (Option.some.inj h).symm
  · obtain ⟨rfl, rfl⟩ := Prod.mk.inj (Option.some.inj ha)
    refine (Work.closed hr).works ht ?_
    cases failure <;> exact (Option.some.inj h).symm
  · exact absurd ha (by simp)

theorem works_resume (h : s.resume t = some s') : s.Works t s' := by
  obtain ⟨job, ht, h⟩ := Option.bind_eq_some_iff.mp h
  obtain ⟨⟨c, call⟩, ha, h⟩ := Option.bind_eq_some_iff.mp h
  obtain ⟨x, hx, h⟩ := Option.bind_eq_some_iff.mp h
  obtain ⟨ending, he, h⟩ := Option.bind_eq_some_iff.mp h
  cases ending with
  | crashed => exact (Work.crash ha ⟨x, hx, he⟩).works ht (Option.some.inj h).symm
  | returned failure => exact works_afterCall ht ha ⟨x, hx, he⟩ h

theorem begins_connect (s : Client) (ip : String) (port : UInt16) :
    ∃ job, Begins s (.connect ip port) s job ∧ s.beginConnect ip port = s.addTask job := by
  cases hv : s.config.validate with
  | error e => exact ⟨_, .misconfigured e, by simp [beginConnect, hv]⟩
  | ok =>
    cases hc : s.isConnected with
    | true => exact ⟨_, .already hc, by simp [beginConnect, hv, hc]⟩
    | false => exact ⟨_, .connect hc, by simp [beginConnect, hv, hc]⟩

theorem begins_of_begin {r : Request} (h : s.begin r = some s') :
    ∃ s₁ job, Begins s r s₁ job ∧ s' = s₁.addTask job := by
  cases r with
  | connect ip port =>
    obtain ⟨job, hb, heq⟩ := begins_connect s ip port
    exact ⟨s, job, hb, (Option.some.inj h).symm.trans heq⟩
  | send payload =>
    simp only [begin] at h
    split at h
    · rename_i hslot
      exact ⟨_, _, .sendNowhere hslot, (Option.some.inj h).symm⟩
    · rename_i c hslot
      obtain ⟨p, hp, h⟩ := Option.bind_eq_some_iff.mp h
      obtain ⟨x, hx, rfl⟩ := beginSend_eq_some hp
      exact ⟨_, _, .send hslot hx, (Option.some.inj h).symm⟩
  | close =>
    simp only [begin] at h
    split at h
    · rename_i hslot
      exact ⟨_, _, .closeNothing hslot, (Option.some.inj h).symm⟩
    · rename_i c hslot
      obtain ⟨p, hp, h⟩ := Option.bind_eq_some_iff.mp h
      obtain ⟨x, hx, rfl⟩ := beginClose_eq_some hp
      exact ⟨_, _, .close hslot hx, (Option.some.inj h).symm⟩

theorem turn_of_step {a : Action} (h : s.step behaviour a = some s') : Turn behaviour s a s' := by
  unfold step at h
  split at h
  · exact absurd h (by simp)
  · cases a with
    | subscribe o => exact Option.some.inj h ▸ .subscribe o rfl
    | begin r =>
      obtain ⟨s₁, job, hb, rfl⟩ := begins_of_begin h
      exact .begin rfl hb
    | connected t stream => exact .work rfl (works_connected h)
    | connectFailed t reason => exact .work rfl (works_connectFailed h)
    | connectExpired t => exact .work rfl (works_connectExpired h)
    | resume t => exact .work rfl (works_resume h)
    | on c act =>
      dsimp only at h
      split at h
      · exact absurd h (by simp)
      · rename_i hcall
        obtain ⟨x, hx, h⟩ := Option.bind_eq_some_iff.mp h
        obtain ⟨⟨x', feed⟩, hstep, h⟩ := Option.bind_eq_some_iff.mp h
        exact Option.some.inj h ▸ .on rfl hx (Bool.eq_false_iff.mpr hcall) hstep
    | pass ms => exact Option.some.inj h ▸ .pass ms rfl

end Fanout.Client
