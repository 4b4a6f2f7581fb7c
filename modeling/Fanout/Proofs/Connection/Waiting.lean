import Fanout.Connection.Schedule
import Fanout.Proofs.Connection.Soundness

namespace Fanout

theorem Call.unended_of_closing {call : Call} (h : call.closingStanding ≠ .outside) :
    call.ending? = none := by
  match call with
  | .close .queued | .close .draining | .close (.joining _ _) => rfl
  | .listen _ | .send _ _ | .close (.done _) | .close .crashed =>
    simp [closingStanding] at h

theorem Call.unended_of_writing {call : Call} (h : call.writingStanding ≠ .outside) :
    call.ending? = none := by
  match call with
  | .send _ .queued | .send _ (.writing _) | .close .draining => rfl
  | .listen _ | .send _ (.done _ _) | .close .queued | .close (.joining _ _) | .close (.done _)
  | .close .crashed => simp [writingStanding] at h

namespace Lock.Serves

variable {α : Type} {l : Lock} {f : α → Standing} {xs : List α} {i j : Nat} {x : α}

theorem exists_holder (h : l.Serves (xs.map f)) (hi : xs[i]? = some x) (hx : f x ≠ .outside) :
    ∃ j, l.isHeldBy j = true := by
  have hstanding : (xs.map f)[i]? = some (f x) := by simp [hi]
  exact exists_isHeldBy ((h.mem_queue_iff hstanding).mpr hx)

theorem holder (h : l.Serves (xs.map f)) (held : l.isHeldBy j = true) :
    ∃ y, xs[j]? = some y ∧ f y ≠ .outside := by
  have hstanding := h.standing_of_isHeldBy held
  simp only [List.getElem?_map, Option.map_eq_some_iff] at hstanding
  rcases hstanding with ⟨y, hy, hf⟩ | ⟨y, hy, hf⟩ <;> exact ⟨y, hy, by simp [hf]⟩

end Lock.Serves

namespace Connection

/-- What holds a call up: another call that has the lock, or the receive task, which it joins. -/
inductive Obstacle where
  | call (j : Nat)
  | receiver
  deriving DecidableEq, Repr

inductive Awaits (x : Connection) (i : Nat) : Obstacle → Prop
  | closing {j : Nat} (hi : x.calls[i]? = some (.close .queued))
      (held : x.closing.isHeldBy j = true) (hj : j ≠ i) : Awaits x i (.call j)
  | writer {j : Nat}
      (hi : x.calls[i]? = some (.close .draining) ∨
        ∃ payload, x.calls[i]? = some (.send payload .queued))
      (held : x.writing.isHeldBy j = true) (hj : j ≠ i) : Awaits x i (.call j)
  | receiver {failure : Failure} (hi : x.calls[i]? = some (.close (.joining true failure)))
      (hr : x.receiver.hasEnded = false) : Awaits x i .receiver

def Goes (x : Connection) (a : Action) : Prop :=
  ∀ {σ : Type} (tell : Sink σ) (s : σ), ∃ q, x.step tell a s = some q

def Action.promptCall? : Action → Option Nat
  | .obtainWriter i | .obtainClosing i | .halt i _ | .finishClose i => some i
  | _ => none

def Action.isReceive : Action → Bool
  | .look => true
  | .read => true
  | _ => false

/-- First come the closers in their queue, then those who wait for the writer, then the join. -/
def callRank (x : Connection) (i : Nat) : Nat :=
  match x.calls[i]? with
  | some (.close .queued) => if x.closing.isHeldBy i then 0 else 3
  | some (.close .draining) => if x.writing.isHeldBy i then 0 else 2
  | some (.send _ .queued) => if x.writing.isHeldBy i then 0 else 2
  | some (.close (.joining _ _)) => 1
  | _ => 0

variable {x : Connection} {i j : Nat} {call : Call} {a : Action} {o : Obstacle}

theorem Action.not_call_of_prompt (h : a.promptCall? = some i) : a.isCall = false := by
  cases a <;> first | rfl | simp [promptCall?] at h

theorem Action.not_call_of_receive (h : a.isReceive = true) : a.isCall = false := by
  cases a <;> first | rfl | simp [isReceive] at h

theorem callRank_le (x : Connection) (i : Nat) : x.callRank i ≤ 3 := by
  unfold callRank
  split
  · split <;> omega
  · split <;> omega
  · split <;> omega
  · omega
  · omega

namespace Sound

theorem callRank_closer (h : x.Sound) (held : x.closing.isHeldBy j = true) :
    x.callRank j ≤ 2 := by
  obtain ⟨call, hcall, hs⟩ := h.closing.holder held
  match call with
  | .close .queued => simp [callRank, hcall, held]
  | .close .draining =>
    simp only [callRank, hcall]
    split <;> omega
  | .close (.joining _ _) => simp [callRank, hcall]
  | .listen _ | .send _ _ | .close (.done _) | .close .crashed =>
    simp [Call.closingStanding] at hs

theorem callRank_writer (h : x.Sound) (held : x.writing.isHeldBy j = true) :
    x.callRank j = 0 := by
  obtain ⟨call, hcall, hs⟩ := h.writing.holder held
  match call with
  | .send _ .queued | .close .draining => simp [callRank, hcall, held]
  | .send _ (.writing _) => simp [callRank, hcall]
  | .listen _ | .send _ (.done _ _) | .close .queued | .close (.joining _ _) | .close (.done _)
  | .close .crashed => simp [Call.writingStanding] at hs

theorem callRank_lt (h : x.Sound) (hw : x.Awaits i (.call j)) : x.callRank j < x.callRank i := by
  cases hw with
  | closing hi held hj =>
    have hnot : x.closing.isHeldBy i = false :=
      Bool.eq_false_iff.mpr fun hheld => hj (Lock.isHeldBy_unique held hheld)
    have hi' : x.callRank i = 3 := by simp [callRank, hi, hnot]
    have := h.callRank_closer held
    omega
  | writer hi held hj =>
    have hnot : x.writing.isHeldBy i = false :=
      Bool.eq_false_iff.mpr fun hheld => hj (Lock.isHeldBy_unique held hheld)
    have hi' : x.callRank i = 2 := by
      rcases hi with hi | ⟨payload, hi⟩ <;> simp [callRank, hi, hnot]
    have := h.callRank_writer held
    omega

theorem unended_of_awaited (h : x.Sound) (hw : x.Awaits i (.call j)) :
    ∃ call, x.calls[j]? = some call ∧ call.ending? = none := by
  cases hw with
  | closing _ held =>
    obtain ⟨call, hcall, hs⟩ := h.closing.holder held
    exact ⟨call, hcall, Call.unended_of_closing hs⟩
  | writer _ held =>
    obtain ⟨call, hcall, hs⟩ := h.writing.holder held
    exact ⟨call, hcall, Call.unended_of_writing hs⟩

theorem receiving_of_awaited (h : x.Sound) (hw : x.Awaits i .receiver) :
    x.isReceiving = true ∧ x.cancelled = true := by
  cases hw with
  | receiver hi hr =>
    refine ⟨?_, h.cancelled hi⟩
    have hstarted := h.joined hi
    have hs := h.staged
    cases hp : x.phase with
    | created => simp [Staged, hp, hstarted] at hs
    | listening =>
      simp only [Staged, hp] at hs
      rcases hs.1 with hr' | hr' <;> simp [isReceiving, hr']
    | disconnected => simp [Staged, hp, hstarted, hr] at hs

end Sound

theorem callRank_pos (hw : x.Awaits i .receiver) : 0 < x.callRank i := by
  cases hw with
  | receiver hi => simp [callRank, hi]

theorem goes_obtainWriter {payload : List UInt8} (hi : x.calls[i]? = some (.send payload .queued))
    (held : x.writing.isHeldBy i = true) : x.Goes (.obtainWriter i) := by
  intro σ tell s
  simp only [step, obtainWriter, hi, held, if_true, Option.map_eq_some_iff]
  split
  · split <;> exact ⟨_, _, rfl, rfl⟩
  · exact ⟨_, _, rfl, rfl⟩

theorem goes_writeExpired {payload : List UInt8} {written : Nat}
    (hi : x.calls[i]? = some (.send payload (.writing written))) : x.Goes (.writeExpired i) := by
  intro σ tell s
  simp [step, abandonWrite, hi]

theorem goes_obtainClosing (hi : x.calls[i]? = some (.close .queued))
    (held : x.closing.isHeldBy i = true) : x.Goes (.obtainClosing i) := by
  intro σ tell s
  simp [step, obtainClosing, hi, held]

theorem goes_halt (hi : x.calls[i]? = some (.close .draining))
    (held : x.writing.isHeldBy i = true) (h : Halt) : x.Goes (.halt i h) := by
  intro σ tell s
  simp [step, halt, hi, held]

theorem goes_finishClose {tookHandle : Bool} {failure : Failure}
    (hi : x.calls[i]? = some (.close (.joining tookHandle failure)))
    (joined : tookHandle = true → x.receiver.hasEnded = true) : x.Goes (.finishClose i) := by
  intro σ tell s
  have hj : (tookHandle && !x.receiver.hasEnded) = false := by
    cases tookHandle with
    | false => rfl
    | true => simp [joined]
  simp [step, finishClose, hi, hj]

theorem receiver_goes (h : x.isReceiving = true) : ∃ a, a.isReceive = true ∧ x.Goes a := by
  simp only [isReceiving, Bool.or_eq_true, beq_iff_eq] at h
  rcases h with hr | hr
  · refine ⟨.look, rfl, fun tell s => ?_⟩
    simp only [step, look, hr, if_true]
    split <;> exact ⟨_, rfl⟩
  · refine ⟨.read, rfl, fun tell s => ?_⟩
    simp only [step, read, hr, if_true]
    split
    · exact ⟨_, rfl⟩
    · split <;> exact ⟨_, rfl⟩

theorem Sound.call_goes_on (h : x.Sound) (hi : x.calls[i]? = some call)
    (hu : call.ending? = none) :
    (∃ o, x.Awaits i o) ∨ (∃ a, a.promptCall? = some i ∧ x.Goes a) ∨
      ∃ payload written, call = .send payload (.writing written) := by
  match call, hi with
  | .send payload .queued, hi =>
    obtain ⟨j, held⟩ := h.writing.exists_holder hi (by simp [Call.writingStanding])
    by_cases hj : j = i
    · exact .inr (.inl ⟨_, rfl, goes_obtainWriter hi (hj ▸ held)⟩)
    · exact .inl ⟨_, .writer (.inr ⟨payload, hi⟩) held hj⟩
  | .send payload (.writing written), _ => exact .inr (.inr ⟨payload, written, rfl⟩)
  | .close .queued, hi =>
    obtain ⟨j, held⟩ := h.closing.exists_holder hi (by simp [Call.closingStanding])
    by_cases hj : j = i
    · exact .inr (.inl ⟨_, rfl, goes_obtainClosing hi (hj ▸ held)⟩)
    · exact .inl ⟨_, .closing hi held hj⟩
  | .close .draining, hi =>
    obtain ⟨j, held⟩ := h.writing.exists_holder hi (by simp [Call.writingStanding])
    by_cases hj : j = i
    · exact .inr (.inl ⟨_, rfl, goes_halt hi (hj ▸ held) .halted⟩)
    · exact .inl ⟨_, .writer (.inl hi) held hj⟩
  | .close (.joining tookHandle failure), hi =>
    by_cases hjoin : tookHandle = true ∧ x.receiver.hasEnded = false
    · obtain ⟨rfl, hr⟩ := hjoin
      exact .inl ⟨_, .receiver hi hr⟩
    · refine .inr (.inl ⟨_, rfl, goes_finishClose hi fun ht => ?_⟩)
      simpa [ht] using hjoin
  | .listen _, _ | .send _ (.done _ _), _ | .close (.done _), _ | .close .crashed, _ =>
    simp [Call.ending?] at hu

end Connection

end Fanout
