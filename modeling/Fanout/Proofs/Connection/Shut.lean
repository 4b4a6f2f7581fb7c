import Fanout.Connection.Schedule
import Fanout.Proofs.Connection.Ebbing

namespace Fanout

namespace Connection

structure Shut (c : Connection) : Prop where
  sound : c.Sound
  phase : c.phase = .disconnected
  writeHalf : c.writeHalf = false
  cancelled : c.cancelled = true

variable {σ : Type} {tell : Sink σ} {c c' : Connection} {a : Action} {s s' : σ}

theorem Sound.shut (h : c.Sound) {i : Nat} {p : ClosePoint}
    (hi : c.calls[i]? = some (.close p)) (hp : p.isOver = true) : c.Shut where
  sound := h
  phase := h.ended hi hp
  writeHalf := (h.halted hi (by cases p <;> simp_all [ClosePoint.isOver, ClosePoint.isHalted])).2
  cancelled := h.cancelled hi

namespace Shut

theorem ebbing (h : c.Shut) : c.Ebbing :=
  ⟨h.sound, h.phase, fun hw => absurd (h.writeHalf.symm.trans hw) nofun⟩

theorem readHalf (h : c.Shut) : c.readHalf = .gone :=
  h.sound.readHalf_of_disconnected h.phase

theorem receiver (h : c.Shut) :
    c.receiver = .absent ∧ c.started = 0 ∨ c.receiver.hasEnded = true ∧ c.started = 1 :=
  h.sound.receiver_of_disconnected h.phase

theorem not_active (h : c.Shut) : c.receiver ≠ .idle ∧ c.receiver ≠ .reading := by
  rcases h.receiver with ⟨hr, -⟩ | ⟨hr, -⟩
  · simp [hr]
  · constructor <;> intro he <;> simp [he, Receiver.hasEnded] at hr

theorem turn (h : c.Shut) (ht : Turn c a c') : c'.Shut where
  sound := h.sound.turn ht
  phase := ht.disconnected_mono h.phase
  writeHalf := ht.writeHalf_mono h.writeHalf
  cancelled := ht.cancelled_mono h.cancelled

theorem quiet_turn (h : c.Shut) (ht : Turn c a c') :
    c'.signals = c.signals ∧ c'.wire = c.wire := by
  cases ht with
  | look hr | quit _ hr => exact absurd hr h.not_active.1
  | deliver hr | unwind _ hr | hangUp _ _ hr | wait hr => exact absurd hr h.not_active.2
  | write hi | finishWriting hi => exact absurd hi (h.sound.silent h.writeHalf)
  | finishClose => exact ⟨by simp [farewell, h.phase], rfl⟩
  | _ => exact ⟨rfl, rfl⟩

theorem quiet_step (h : c.Shut) (hs : c.step tell a s = some (c', s')) : s' = s :=
  quiet_of_signals hs (h.quiet_turn (turn_of_step hs)).1

theorem run {p q : Connection × σ} (h : p.1.Shut) (hr : Run tell p q) :
    q.1.Shut ∧ q.2 = p.2 ∧ q.1.signals = p.1.signals ∧ q.1.wire = p.1.wire := by
  induction hr with
  | refl => exact ⟨h, rfl, rfl, rfl⟩
  | tail _ hn ih =>
    obtain ⟨hshut, hsink, hsignals, hwire⟩ := ih
    obtain ⟨a, ha⟩ := hn
    obtain ⟨hsignals', hwire'⟩ := hshut.quiet_turn (turn_of_step ha)
    exact ⟨hshut.turn (turn_of_step ha), (hshut.quiet_step ha).trans hsink,
      hsignals'.trans hsignals, hwire'.trans hwire⟩

theorem exists_ending (tell : Sink σ) (s : σ) (h : c.Shut) {i : Nat} (hi : i < c.calls.length) :
    ∃ c', Run tell (c, s) (c', s) ∧ (c'.ending? i).isSome = true :=
  h.ebbing.exists_ending tell s hi

end Shut

end Connection

end Fanout
