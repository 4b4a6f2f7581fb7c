import Fanout.Connection.Step

namespace Fanout.Connection

variable {σ : Type}

def farewell (c : Connection) (reason : Reason) : List Signal :=
  if c.phase = .disconnected then [] else [.disconnected reason]

/-- What one step can do to a connection, whatever its sink does with the signals and answers. -/
inductive Turn (c : Connection) : Action → Connection → Prop
  | refuse (e : ConnectionError) (h : c.cancelled = true ∨ c.phase ≠ .created) :
      Turn c .listen (c.addCall (.listen (some e)))
  | strand (hp : c.phase = .created) (hr : c.readHalf ≠ .kept) :
      Turn c .listen ({ c with phase := .listening }.addCall (.listen (some .closed)))
  | listen (hc : c.cancelled = false) (hp : c.phase = .created) (hr : c.readHalf = .kept) :
      Turn c .listen ({ c with
        phase := .listening
        readHalf := .lent
        receiver := .idle
        handle := true
        started := c.started + 1 }.addCall (.listen none))
  | send (payload : List UInt8) : Turn c (.send payload) (c.beginSend payload)
  | close : Turn c .close c.beginClose
  | turnAway {i : Nat} {payload : List UInt8} (hi : c.calls[i]? = some (.send payload .queued))
      (held : c.writing.isHeldBy i = true) (hw : c.writeHalf = false) :
      Turn c (.obtainWriter i)
        ({ c with writers := c.writers ++ [i] }.endSend i payload 0 (some .closed))
  | sendNothing {i : Nat} (hi : c.calls[i]? = some (.send [] .queued))
      (held : c.writing.isHeldBy i = true) (hw : c.writeHalf = true) :
      Turn c (.obtainWriter i) ({ c with writers := c.writers ++ [i] }.endSend i [] 0 none)
  | startWriting {i : Nat} {payload : List UInt8}
      (hi : c.calls[i]? = some (.send payload .queued)) (held : c.writing.isHeldBy i = true)
      (hw : c.writeHalf = true) (hne : payload ≠ []) :
      Turn c (.obtainWriter i)
        ({ c with writers := c.writers ++ [i] }.setCall i (.send payload (.writing 0)))
  | write {i n written : Nat} {payload : List UInt8}
      (hi : c.calls[i]? = some (.send payload (.writing written))) (hn : 0 < n)
      (hlt : written + n < payload.length) :
      Turn c (.write i n) ({ c with wire := c.wire ++ (payload.drop written).take n }.setCall i
        (.send payload (.writing (written + n))))
  | finishWriting {i n written : Nat} {payload : List UInt8}
      (hi : c.calls[i]? = some (.send payload (.writing written))) (hn : 0 < n)
      (heq : written + n = payload.length) :
      Turn c (.write i n) ({ c with wire := c.wire ++ (payload.drop written).take n }.endSend i
        payload (written + n) none)
  | failWrite {i written : Nat} {payload : List UInt8} (reason : String)
      (hi : c.calls[i]? = some (.send payload (.writing written))) :
      Turn c (.failWrite i reason) (c.endSend i payload written (some (.io reason)))
  | writeExpired {i written : Nat} {payload : List UInt8}
      (hi : c.calls[i]? = some (.send payload (.writing written))) :
      Turn c (.writeExpired i) (c.endSend i payload written (some .writeTimeout))
  | obtainClosing {i : Nat} (hi : c.calls[i]? = some (.close .queued))
      (held : c.closing.isHeldBy i = true) :
      Turn c (.obtainClosing i)
        { c.setCall i (.close .draining) with writing := c.writing.join i }
  | halt {i : Nat} (h : Halt) (hi : c.calls[i]? = some (.close .draining))
      (held : c.writing.isHeldBy i = true) :
      Turn c (.halt i h)
        { c.setCall i (.close (.joining c.handle (if c.writeHalf then h.failure else none))) with
          writeHalf := false
          handle := false
          writing := c.writing.leave i }
  | finishClose {i : Nat} {tookHandle : Bool} {failure : Failure} {point : ClosePoint}
      (hi : c.calls[i]? = some (.close (.joining tookHandle failure)))
      (joined : tookHandle = true → c.receiver.hasEnded = true)
      (hp : point = .done failure ∨ point = .crashed ∧ c.phase ≠ .disconnected) :
      Turn c (.finishClose i)
        { c.setCall i (.close point) with
          readHalf := if c.readHalf = .kept then .gone else c.readHalf
          phase := .disconnected
          signals := c.signals ++ c.farewell .closedLocally
          closing := c.closing.leave i }
  | look (hr : c.receiver = .idle) (hc : c.cancelled = false) :
      Turn c .look { c with receiver := .reading }
  | quit (how : TaskEnd) (hr : c.receiver = .idle) (hc : c.cancelled = true) :
      Turn c .look { c with
        readHalf := .gone
        phase := .disconnected
        signals := c.signals ++ c.farewell .closedLocally
        receiver := .ended how }
  | deliver (hr : c.receiver = .reading) (hne : c.nextPayload ≠ []) :
      Turn c .read { c with
        taken := c.taken + c.nextPayload.length
        signals := c.signals ++ [.message c.nextPayload]
        receiver := .idle }
  | unwind (how : TaskEnd) (hr : c.receiver = .reading) (hne : c.nextPayload ≠ []) :
      Turn c .read { c with
        taken := c.taken + c.nextPayload.length
        readHalf := .gone
        phase := .disconnected
        signals := c.signals ++ [.message c.nextPayload] ++ c.farewell .aborted
        receiver := .ended how }
  | hangUp (reason : Reason) (how : TaskEnd) (hr : c.receiver = .reading)
      (hne : c.nextPayload = [])
      (he : c.stream.ending = some .finished ∧ reason = .peerClosed ∨
        ∃ text, c.stream.ending = some (.failed text) ∧ reason = .failed text) :
      Turn c .read { c with
        readHalf := .gone
        phase := .disconnected
        signals := c.signals ++ c.farewell reason
        receiver := .ended how }
  | wait (hr : c.receiver = .reading) (hne : c.nextPayload = []) (he : c.stream.ending = none) :
      Turn c .read { c with receiver := .idle }
  | arrive (bytes : List UInt8) (he : c.stream.ending = none) :
      Turn c (.arrive bytes)
        { c with stream := { c.stream with arrived := c.stream.arrived ++ bytes } }
  | finish (how : StreamEnd) (he : c.stream.ending = none) :
      Turn c (.finish how) { c with stream := { c.stream with ending := some how } }

theorem disconnect_fst (tell : Sink σ) (c : Connection) (reason : Reason) (s : σ) :
    (c.disconnect tell reason s).1 =
      { c with phase := .disconnected, signals := c.signals ++ c.farewell reason } := by
  unfold disconnect farewell
  split
  · rename_i hp
    simp [← hp]
  · rfl

theorem disconnect_returned (tell : Sink σ) {c : Connection} (h : c.phase = .disconnected)
    (reason : Reason) (s : σ) : (c.disconnect tell reason s) = (c, s, .returned) := by
  simp [disconnect, h]

theorem endReceive_fst (tell : Sink σ) (c : Connection) (reason : Reason) (s : σ) :
    ∃ how, (c.endReceive tell reason s).1 = { c with
      readHalf := .gone
      phase := .disconnected
      signals := c.signals ++ c.farewell reason
      receiver := .ended how } := by
  simp only [endReceive, disconnect_fst]
  exact ⟨_, rfl⟩

theorem unwindReceive_fst (tell : Sink σ) (c : Connection) (s : σ) :
    ∃ how, (c.unwindReceive tell s).1 = { c with
      readHalf := .gone
      phase := .disconnected
      signals := c.signals ++ c.farewell .aborted
      receiver := .ended how } := by
  simp only [unwindReceive, disconnect_fst]
  exact ⟨_, rfl⟩

theorem startListen_refused {c : Connection} (h : c.cancelled = true ∨ c.phase ≠ .created) :
    ∃ e, c.startListen = (c, some e) := by
  unfold startListen
  by_cases hc : c.cancelled = true
  · exact ⟨.closed, by rw [if_pos hc]⟩
  · rw [if_neg hc]
    split
    · exact ⟨.alreadyListening, rfl⟩
    · exact ⟨.closed, rfl⟩
    · rename_i hp
      exact absurd hp (h.resolve_left hc)

theorem startListen_kept {c : Connection} (hc : c.cancelled = false) (hp : c.phase = .created)
    (hr : c.readHalf = .kept) :
    c.startListen = ({ c with
      phase := .listening
      readHalf := .lent
      receiver := .idle
      handle := true
      started := c.started + 1 }, none) := by
  simp [startListen, hc, hp, hr]

theorem startListen_missing {c : Connection} (hc : c.cancelled = false) (hp : c.phase = .created)
    (hr : c.readHalf ≠ .kept) :
    c.startListen = ({ c with phase := .listening }, some .closed) := by
  simp [startListen, hc, hp, hr]

theorem listen_eq (c : Connection) :
    c.listen = (c.startListen.1.addCall (.listen c.startListen.2), c.startListen.2) := rfl

theorem turn_listen (c : Connection) : Turn c .listen c.listen.1 := by
  rw [listen_eq]
  by_cases h : c.cancelled = true ∨ c.phase ≠ .created
  · obtain ⟨e, he⟩ := startListen_refused h
    rw [he]
    exact .refuse e h
  · obtain ⟨hc, hp⟩ : c.cancelled = false ∧ c.phase = .created := by simpa using h
    by_cases hr : c.readHalf = .kept
    · rw [startListen_kept hc hp hr]
      exact .listen hc hp hr
    · rw [startListen_missing hc hp hr]
      exact .strand hp hr

theorem turn_obtainWriter {c c' : Connection} {i : Nat} (h : c.obtainWriter i = some c') :
    Turn c (.obtainWriter i) c' := by
  unfold obtainWriter at h
  split at h
  · rename_i payload hi
    split at h
    · rename_i held
      by_cases hw : c.writeHalf = true
      · rw [if_pos hw] at h
        split at h
        · rename_i hne
          subst hne
          exact Option.some.inj h ▸ .sendNothing hi held hw
        · rename_i hne
          exact Option.some.inj h ▸ .startWriting hi held hw hne
      · rw [if_neg hw] at h
        exact Option.some.inj h ▸ .turnAway hi held (by simpa using hw)
    · exact absurd h (by simp)
  · exact absurd h (by simp)

theorem turn_write {c c' : Connection} {i n : Nat} (h : c.write i n = some c') :
    Turn c (.write i n) c' := by
  unfold write at h
  split at h
  · rename_i payload written hi
    split at h
    · rename_i hn
      split at h
      · rename_i heq
        exact Option.some.inj h ▸ .finishWriting hi hn.1 heq
      · rename_i hlt
        exact Option.some.inj h ▸ .write hi hn.1 (by omega)
    · exact absurd h (by simp)
  · exact absurd h (by simp)

theorem abandonWrite_eq_some {c c' : Connection} {i : Nat} {e : ConnectionError}
    (h : c.abandonWrite i e = some c') :
    ∃ payload written, c.calls[i]? = some (.send payload (.writing written)) ∧
      c' = c.endSend i payload written (some e) := by
  unfold abandonWrite at h
  split at h
  · rename_i payload written hi
    exact ⟨payload, written, hi, (Option.some.inj h).symm⟩
  · exact absurd h (by simp)

theorem turn_obtainClosing {c c' : Connection} {i : Nat} (h : c.obtainClosing i = some c') :
    Turn c (.obtainClosing i) c' := by
  unfold obtainClosing at h
  split at h
  · rename_i hi
    split at h
    · rename_i held
      exact Option.some.inj h ▸ .obtainClosing hi held
    · exact absurd h (by simp)
  · exact absurd h (by simp)

theorem turn_halt {c c' : Connection} {i : Nat} {halt : Halt} (h : c.halt i halt = some c') :
    Turn c (.halt i halt) c' := by
  unfold Connection.halt at h
  split at h
  · rename_i hi
    split at h
    · rename_i held
      exact Option.some.inj h ▸ .halt halt hi held
    · exact absurd h (by simp)
  · exact absurd h (by simp)

theorem turn_finishClose {tell : Sink σ} {c c' : Connection} {i : Nat} {s s' : σ}
    (h : c.finishClose tell i s = some (c', s')) : Turn c (.finishClose i) c' := by
  unfold finishClose at h
  split at h
  · rename_i tookHandle failure hi
    split at h
    · exact absurd h (by simp)
    · rename_i hj
      have joined : tookHandle = true → c.receiver.hasEnded = true := by
        intro ht
        simpa [ht] using hj
      simp only [disconnect_fst, Option.some.injEq, Prod.mk.injEq] at h
      rw [← h.1]
      refine .finishClose hi joined ?_
      by_cases hp : c.phase = .disconnected
      · simp [disconnect, hp]
      · split
        · exact .inl rfl
        · exact .inr ⟨rfl, hp⟩
  · exact absurd h (by simp)

theorem turn_look {tell : Sink σ} {c c' : Connection} {s s' : σ}
    (h : c.look tell s = some (c', s')) : Turn c .look c' := by
  unfold look at h
  split at h
  · rename_i hr
    by_cases hc : c.cancelled = true
    · rw [if_pos hc] at h
      obtain ⟨how, he⟩ := endReceive_fst tell c .closedLocally s
      simp only [Option.some.inj h] at he
      exact he ▸ .quit how hr hc
    · rw [if_neg hc] at h
      exact (Prod.mk.inj (Option.some.inj h)).1 ▸ .look hr (by simpa using hc)
  · exact absurd h (by simp)

def taking (c : Connection) (payload : List UInt8) : Connection :=
  { c with
    taken := c.taken + payload.length
    signals := c.signals ++ [.message payload] }

theorem deliver_returned {tell : Sink σ} {c : Connection} {s : σ} {payload : List UInt8}
    (h : (tell (c.taking payload) (.message payload) s).2 = .returned) :
    c.deliver tell payload s =
      ({ c.taking payload with receiver := .idle },
        (tell (c.taking payload) (.message payload) s).1) := by
  unfold taking at h
  simp only [deliver, h, taking]

theorem deliver_raised {tell : Sink σ} {c : Connection} {s : σ} {payload : List UInt8}
    (h : (tell (c.taking payload) (.message payload) s).2 = .raised) :
    c.deliver tell payload s =
      (c.taking payload).unwindReceive tell (tell (c.taking payload) (.message payload) s).1 := by
  unfold taking at h
  simp only [deliver, h, taking]

theorem turn_deliver (tell : Sink σ) {c : Connection} (s : σ) (hr : c.receiver = .reading)
    (hne : c.nextPayload ≠ []) : Turn c .read (c.deliver tell c.nextPayload s).1 := by
  cases h : (tell (c.taking c.nextPayload) (.message c.nextPayload) s).2 with
  | returned =>
    rw [deliver_returned h]
    exact .deliver hr hne
  | raised =>
    obtain ⟨how, he⟩ := unwindReceive_fst tell (c.taking c.nextPayload)
      (tell (c.taking c.nextPayload) (.message c.nextPayload) s).1
    rw [deliver_raised h, he]
    exact .unwind how hr hne

theorem turn_read {tell : Sink σ} {c c' : Connection} {s s' : σ}
    (h : c.read tell s = some (c', s')) : Turn c .read c' := by
  unfold read at h
  split at h
  · rename_i hr
    by_cases hne : c.nextPayload = []
    · simp only [hne, ne_eq, not_true_eq_false, if_false] at h
      split at h
      · rename_i he
        obtain ⟨how, hc⟩ := endReceive_fst tell c .peerClosed s
        simp only [Option.some.inj h] at hc
        exact hc ▸ .hangUp .peerClosed how hr hne (.inl ⟨he, rfl⟩)
      · rename_i text he
        obtain ⟨how, hc⟩ := endReceive_fst tell c (.failed text) s
        simp only [Option.some.inj h] at hc
        exact hc ▸ .hangUp (.failed text) how hr hne (.inr ⟨text, he, rfl⟩)
      · rename_i he
        simp only [Option.some.injEq, Prod.mk.injEq] at h
        exact h.1 ▸ .wait hr hne he
    · simp only [ne_eq, hne, not_false_eq_true, if_true, Option.some.injEq] at h
      have hd := turn_deliver tell s hr hne
      rwa [h] at hd
  · exact absurd h (by simp)

theorem turn_of_step {tell : Sink σ} {c c' : Connection} {a : Action} {s s' : σ}
    (h : c.step tell a s = some (c', s')) : Turn c a c' := by
  cases a with
  | listen =>
    simp only [step, Option.some.injEq, Prod.mk.injEq] at h
    exact h.1 ▸ turn_listen c
  | send payload =>
    simp only [step, Option.some.injEq, Prod.mk.injEq] at h
    exact h.1 ▸ .send payload
  | close =>
    simp only [step, Option.some.injEq, Prod.mk.injEq] at h
    exact h.1 ▸ .close
  | obtainWriter i =>
    obtain ⟨c₁, h₁, heq⟩ := Option.map_eq_some_iff.mp h
    exact (Prod.mk.inj heq).1 ▸ turn_obtainWriter h₁
  | write i n =>
    obtain ⟨c₁, h₁, heq⟩ := Option.map_eq_some_iff.mp h
    exact (Prod.mk.inj heq).1 ▸ turn_write h₁
  | failWrite i reason =>
    obtain ⟨c₁, h₁, heq⟩ := Option.map_eq_some_iff.mp h
    obtain ⟨payload, written, hi, rfl⟩ := abandonWrite_eq_some h₁
    exact (Prod.mk.inj heq).1 ▸ .failWrite reason hi
  | writeExpired i =>
    obtain ⟨c₁, h₁, heq⟩ := Option.map_eq_some_iff.mp h
    obtain ⟨payload, written, hi, rfl⟩ := abandonWrite_eq_some h₁
    exact (Prod.mk.inj heq).1 ▸ .writeExpired hi
  | obtainClosing i =>
    obtain ⟨c₁, h₁, heq⟩ := Option.map_eq_some_iff.mp h
    exact (Prod.mk.inj heq).1 ▸ turn_obtainClosing h₁
  | halt i how =>
    obtain ⟨c₁, h₁, heq⟩ := Option.map_eq_some_iff.mp h
    exact (Prod.mk.inj heq).1 ▸ turn_halt h₁
  | finishClose i => exact turn_finishClose h
  | look => exact turn_look h
  | read => exact turn_read h
  | arrive bytes =>
    obtain ⟨c₁, h₁, heq⟩ := Option.map_eq_some_iff.mp h
    unfold arrive at h₁
    split at h₁
    · rename_i he
      rw [← (Prod.mk.inj heq).1, ← Option.some.inj h₁]
      exact .arrive bytes he
    · exact absurd h₁ (by simp)
  | finish how =>
    obtain ⟨c₁, h₁, heq⟩ := Option.map_eq_some_iff.mp h
    unfold finish at h₁
    split at h₁
    · rename_i he
      rw [← (Prod.mk.inj heq).1, ← Option.some.inj h₁]
      exact .finish how he
    · exact absurd h₁ (by simp)

end Fanout.Connection
