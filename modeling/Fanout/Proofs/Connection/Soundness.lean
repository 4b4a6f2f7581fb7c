import Fanout.Proofs.Connection.Calls

namespace Fanout

open Lock (Standing)

namespace Call

def closingStanding : Call → Standing
  | .close .queued => .waiting
  | .close .draining => .holding
  | .close (.joining _ _) => .holding
  | _ => .outside

def writingStanding : Call → Standing
  | .send _ .queued => .waiting
  | .send _ (.writing _) => .holding
  | .close .draining => .waiting
  | _ => .outside

end Call

namespace Connection

def Staged (c : Connection) : Prop :=
  match c.phase with
  | .created => c.receiver = .absent ∧ c.readHalf = .kept ∧ c.handle = false ∧ c.started = 0
  | .listening => (c.receiver = .idle ∨ c.receiver = .reading) ∧ c.readHalf = .lent ∧ c.started = 1
  | .disconnected => c.readHalf = .gone ∧
      (c.receiver = .absent ∧ c.handle = false ∧ c.started = 0 ∨
        c.receiver.hasEnded = true ∧ c.started = 1)

def Spoken (phase : Phase) (signals : List Signal) : Prop :=
  ∃ payloads : List (List UInt8),
    phase ≠ .disconnected ∧ signals = payloads.map .message ∨
      phase = .disconnected ∧
        ∃ reason, signals = payloads.map .message ++ [.disconnected reason]

namespace Spoken

variable {c : Connection} {phase : Phase} {signals : List Signal}

theorem listening (h : Spoken phase signals) (hp : phase = .created) :
    Spoken .listening signals := by
  obtain ⟨payloads, ⟨-, hs⟩ | ⟨hd, -⟩⟩ := h
  · exact ⟨payloads, .inl ⟨nofun, hs⟩⟩
  · simp [hp] at hd

theorem message (h : Spoken phase signals) (hp : phase ≠ .disconnected) (payload : List UInt8) :
    Spoken phase (signals ++ [.message payload]) := by
  obtain ⟨payloads, ⟨-, hs⟩ | ⟨hd, -⟩⟩ := h
  · exact ⟨payloads ++ [payload], .inl ⟨hp, by simp [hs]⟩⟩
  · exact absurd hd hp

theorem farewell (h : Spoken c.phase signals) (reason : Reason) :
    Spoken .disconnected (signals ++ c.farewell reason) := by
  obtain ⟨payloads, ⟨hp, hs⟩ | ⟨hp, why, hs⟩⟩ := h
  · exact ⟨payloads, .inr ⟨rfl, reason, by simp [Connection.farewell, hp, hs]⟩⟩
  · exact ⟨payloads, .inr ⟨rfl, why, by simp [Connection.farewell, hp, hs]⟩⟩

end Spoken

structure Sound (c : Connection) : Prop where
  closing : c.closing.Serves (c.calls.map Call.closingStanding)
  writing : c.writing.Serves (c.calls.map Call.writingStanding)
  cancelled : ∀ {i : Nat} {p : ClosePoint}, c.calls[i]? = some (.close p) → c.cancelled = true
  staged : c.Staged
  spoken : Spoken c.phase c.signals
  joiner : c.phase = .listening → c.handle = false →
    ∃ (i : Nat) (failure : Failure), c.calls[i]? = some (.close (.joining true failure))
  joined : ∀ {i : Nat} {failure : Failure},
    c.calls[i]? = some (.close (.joining true failure)) → c.started = 1
  halted : ∀ {i : Nat} {p : ClosePoint}, c.calls[i]? = some (.close p) → p.isHalted = true →
    c.handle = false ∧ c.writeHalf = false
  ended : ∀ {i : Nat} {p : ClosePoint}, c.calls[i]? = some (.close p) → p.isOver = true →
    c.phase = .disconnected
  silent : c.writeHalf = false →
    ∀ {i written : Nat} {payload : List UInt8},
      c.calls[i]? ≠ some (.send payload (.writing written))

theorem sound_ofStream {stream : Stream} {settings : Settings} {time : Timestamp} {c : Connection}
    (h : ofStream stream settings time = .ok c) : Sound c := by
  unfold ofStream at h
  split at h
  · exact absurd h (by simp)
  · obtain rfl := Except.ok.inj h
    refine ⟨Lock.serves_empty, Lock.serves_empty, ?_, ?_, ?_, ?_, ?_, ?_, ?_, ?_⟩
    all_goals simp [Staged, Spoken]

namespace Sound

variable {c c' : Connection} {a : Action}

theorem listening_of_active (h : c.Sound) (hr : c.receiver = .idle ∨ c.receiver = .reading) :
    c.phase = .listening := by
  have hs := h.staged
  cases hp : c.phase with
  | listening => rfl
  | created => rcases hr with hr | hr <;> simp [Staged, hp, hr] at hs
  | disconnected => rcases hr with hr | hr <;> simp [Staged, hp, hr, Receiver.hasEnded] at hs

theorem not_listening (h : c.Sound) {i : Nat} {tookHandle : Bool} {failure : Failure}
    (hi : c.calls[i]? = some (.close (.joining tookHandle failure)))
    (joined : tookHandle = true → c.receiver.hasEnded = true) : c.phase ≠ .listening := by
  intro hp
  have hs := h.staged
  simp only [Staged, hp] at hs
  have hr : c.receiver.hasEnded = false := by
    rcases hs.1 with hr | hr <;> simp [hr, Receiver.hasEnded]
  have ht : tookHandle = false := by
    cases tookHandle with
    | false => rfl
    | true => simp [hr] at joined
  -- Whoever took the handle of the task that still runs holds the same lock, and so is this closer.
  obtain ⟨j, failure', hj⟩ := h.joiner hp (h.halted hi rfl).1
  obtain rfl := h.closing.eq_of_holding hi hj rfl rfl
  simp [hi, ht] at hj

theorem closing_turn (h : c.Sound) (ht : Turn c a c') :
    c'.closing.Serves (c'.calls.map Call.closingStanding) := by
  cases ht with
  | refuse | strand | listen | send => exact h.closing.map_append_outside rfl
  | close => exact h.closing.map_append_waiting rfl
  | turnAway hi | sendNothing hi | startWriting hi | write hi | finishWriting hi | failWrite _ hi
  | writeExpired hi => exact h.closing.map_set_same hi rfl
  | obtainClosing hi held => exact h.closing.map_set hi (.close .draining) (fun _ => held)
  | halt _ hi => exact h.closing.map_set_same hi rfl
  | @finishClose i tookHandle failure point hi joined hp =>
    have hout : Call.closingStanding (.close point) = .outside := by
      rcases hp with rfl | ⟨rfl, -⟩ <;> rfl
    have hset := h.closing.map_set hi (.close point) (by simp [hout])
    rwa [hout] at hset
  | look | quit | deliver | unwind | hangUp | wait | arrive | finish => exact h.closing

theorem writing_turn (h : c.Sound) (ht : Turn c a c') :
    c'.writing.Serves (c'.calls.map Call.writingStanding) := by
  cases ht with
  | refuse | strand | listen | close => exact h.writing.map_append_outside rfl
  | send => exact h.writing.map_append_waiting rfl
  | @turnAway i payload hi =>
    exact h.writing.map_set hi (.send payload (.done 0 (some .closed))) nofun
  | @sendNothing i hi => exact h.writing.map_set hi (.send [] (.done 0 none)) nofun
  | @startWriting i payload hi held =>
    exact h.writing.map_set hi (.send payload (.writing 0)) (fun _ => held)
  | write hi => exact h.writing.map_set_same hi rfl
  | @finishWriting i n written payload hi =>
    exact h.writing.map_set hi (.send payload (.done (written + n) none)) nofun
  | @failWrite i written payload reason hi =>
    exact h.writing.map_set hi (.send payload (.done written (some (.io reason)))) nofun
  | @writeExpired i written payload hi =>
    exact h.writing.map_set hi (.send payload (.done written (some .writeTimeout))) nofun
  | obtainClosing hi => exact h.writing.map_set hi (.close .draining) nofun
  | halt how hi => exact h.writing.map_set hi (.close (.joining c.handle _)) nofun
  | @finishClose i tookHandle failure point hi joined hp =>
    have hout : Call.writingStanding (.close point) = .outside := by
      rcases hp with rfl | ⟨rfl, -⟩ <;> rfl
    exact h.writing.map_set_same hi hout
  | look | quit | deliver | unwind | hangUp | wait | arrive | finish => exact h.writing

theorem cancelled_turn (h : c.Sound) (ht : Turn c a c') {i : Nat} {p : ClosePoint}
    (hi : c'.calls[i]? = some (.close p)) : c'.cancelled = true := by
  rcases ht.call_origin hi with hold | ⟨-, hb⟩ | ⟨call, hold, hm⟩
  · exact ht.cancelled_mono (h.cancelled hold)
  · cases hb with
    | close hc => exact hc
  · cases hm with
    | obtainClosing | halt | finishClose => exact ht.cancelled_mono (h.cancelled hold)

theorem ended_turn (h : c.Sound) (ht : Turn c a c') {i : Nat} {p : ClosePoint}
    (hi : c'.calls[i]? = some (.close p)) (hp : p.isOver = true) : c'.phase = .disconnected := by
  rcases ht.call_origin hi with hold | ⟨-, hb⟩ | ⟨call, hold, hm⟩
  · exact ht.disconnected_mono (h.ended hold hp)
  · cases hb with
    | close => simp [ClosePoint.isOver] at hp
  · cases hm with
    | obtainClosing | halt => simp [ClosePoint.isOver] at hp
    | finishClose _ _ hphase => exact hphase

theorem staged_turn (h : c.Sound) (ht : Turn c a c') : c'.Staged := by
  have hs := h.staged
  cases ht with
  | refuse | send | close | turnAway | sendNothing | startWriting | write | finishWriting
  | failWrite | writeExpired | obtainClosing | arrive | finish => exact hs
  | strand hp hr =>
    simp only [Staged, hp] at hs
    exact absurd hs.2.1 hr
  | listen hc hp hr =>
    simp only [Staged, hp] at hs
    simp [Staged, addCall, hs]
  | halt how hi held =>
    cases hp : c.phase with
    | created | listening => simp_all [Staged, setCall]
    | disconnected =>
      simp only [Staged, hp] at hs
      simpa [Staged, setCall, hp, hs.1] using hs.2.imp_left (fun h => ⟨h.1, h.2.2⟩)
  | finishClose hi joined hp =>
    have hl := h.not_listening hi joined
    cases hp : c.phase <;> simp_all [Staged, setCall]
  | look hr => cases hp : c.phase <;> simp_all [Staged, Receiver.hasEnded]
  | wait hr | deliver hr => cases hp : c.phase <;> simp_all [Staged, Receiver.hasEnded]
  | quit how hr | unwind how hr | hangUp _ how hr =>
    cases hp : c.phase <;> simp_all [Staged, Receiver.hasEnded]

theorem spoken_turn (h : c.Sound) (ht : Turn c a c') : Spoken c'.phase c'.signals := by
  have hs := h.spoken
  cases ht with
  | refuse | send | close | turnAway | sendNothing | startWriting | write | finishWriting
  | failWrite | writeExpired | obtainClosing | halt | look | wait | arrive | finish => exact hs
  | strand hp | listen _ hp => exact hs.listening hp
  | finishClose | quit | hangUp => exact hs.farewell _
  | deliver hr => exact hs.message (h.listening_of_active (.inr hr) ▸ nofun) _
  | unwind how hr =>
    have hp := h.listening_of_active (.inr hr)
    exact (hs.message (hp ▸ nofun) _).farewell .aborted

theorem started_of_handle (h : c.Sound) (hh : c.handle = true) : c.started = 1 := by
  have hs := h.staged
  cases hp : c.phase <;> simp_all [Staged]

theorem started_turn (h : c.Sound) (ht : Turn c a c') (hs : c.started = 1) : c'.started = 1 := by
  cases ht with
  | listen _ hp =>
    have hstaged := h.staged
    simp [Staged, hp, hs] at hstaged
  | _ => exact hs

theorem handle_turn (ht : Turn c a c') (hc : c.cancelled = true) (hh : c.handle = false) :
    c'.handle = false := by
  cases ht with
  | listen hc' => simp [hc] at hc'
  | halt => rfl
  | _ => exact hh

theorem halted_turn (h : c.Sound) (ht : Turn c a c') {i : Nat} {p : ClosePoint}
    (hi : c'.calls[i]? = some (.close p)) (hp : p.isHalted = true) :
    c'.handle = false ∧ c'.writeHalf = false := by
  have keep {p₀ : ClosePoint} (hold : c.calls[i]? = some (.close p₀)) (hp₀ : p₀.isHalted = true) :
      c'.handle = false ∧ c'.writeHalf = false := by
    obtain ⟨hh, hw⟩ := h.halted hold hp₀
    exact ⟨handle_turn ht (h.cancelled hold) hh, ht.writeHalf_mono hw⟩
  rcases ht.call_origin hi with hold | ⟨-, hb⟩ | ⟨call, hold, hm⟩
  · exact keep hold hp
  · cases hb with
    | close => simp [ClosePoint.isHalted] at hp
  · cases hm with
    | obtainClosing => simp [ClosePoint.isHalted] at hp
    | halt _ _ hh hw => exact ⟨hh, hw⟩
    | finishClose => exact keep hold rfl

theorem joined_turn (h : c.Sound) (ht : Turn c a c') {i : Nat} {failure : Failure}
    (hi : c'.calls[i]? = some (.close (.joining true failure))) : c'.started = 1 := by
  rcases ht.call_origin hi with hold | ⟨-, hb⟩ | ⟨call, hold, hm⟩
  · exact h.started_turn ht (h.joined hold)
  · cases hb
  · generalize hg : Call.close (.joining true failure) = call' at hm
    cases hm with
    | halt _ _ _ _ =>
      simp only [Call.close.injEq, ClosePoint.joining.injEq] at hg
      exact h.started_turn ht (h.started_of_handle hg.1.symm)
    | finishClose _ hp =>
      rcases hp with rfl | ⟨rfl, -⟩ <;> simp at hg
    | _ => simp at hg

theorem joiner_turn (h : c.Sound) (ht : Turn c a c') (hp : c'.phase = .listening)
    (hh : c'.handle = false) :
    ∃ (i : Nat) (failure : Failure), c'.calls[i]? = some (.close (.joining true failure)) := by
  have keep (hp₀ : c.phase = .listening) (hh₀ : c.handle = false) :
      ∃ (i : Nat) (failure : Failure), c'.calls[i]? = some (.close (.joining true failure)) := by
    obtain ⟨i, failure, hi⟩ := h.joiner hp₀ hh₀
    rcases ht.call_onward hi with hold | ⟨call, hnew, hm⟩
    · exact ⟨i, failure, hold⟩
    · cases hm with
      | finishClose _ _ hphase => simp [hp] at hphase
  cases ht with
  | strand hp₀ hr =>
    have hs := h.staged
    simp only [Staged, hp₀] at hs
    exact absurd hs.2.1 hr
  | listen => simp [addCall] at hh
  | finishClose | quit | unwind | hangUp => simp at hp
  | @halt i how hi held =>
    by_cases hh₀ : c.handle = true
    · refine ⟨i, if c.writeHalf then how.failure else none, ?_⟩
      exact (getElem?_set_eq_some hi).mpr (.inl ⟨rfl, by rw [hh₀]⟩)
    · exact keep hp (by simpa using hh₀)
  | _ => exact keep hp hh

theorem silent_turn (h : c.Sound) (ht : Turn c a c') (hw : c'.writeHalf = false)
    {i written : Nat} {payload : List UInt8} :
    c'.calls[i]? ≠ some (.send payload (.writing written)) := by
  intro hi
  have hopen : ∀ {w : Nat}, c.calls[i]? = some (.send payload (.writing w)) →
      c.writeHalf = true := by
    intro w hold
    cases hw₀ : c.writeHalf with
    | true => rfl
    | false => exact absurd hold (h.silent hw₀)
  have hold : ∃ w, c.calls[i]? = some (.send payload (.writing w)) := by
    rcases ht.call_origin hi with hold | ⟨-, hb⟩ | ⟨call, hold, hm⟩
    · exact ⟨written, hold⟩
    · cases hb
    · cases hm with
      | startWriting _ _ hw' => simp [hw] at hw'
      | write _ w => exact ⟨w, hold⟩
  obtain ⟨w, hold⟩ := hold
  cases ht with
  | halt how hj held =>
    -- The closer has the writer, and so no send is in the middle of writing.
    have hheld := h.writing.held i (by simp [hold, Call.writingStanding])
    obtain rfl := Lock.isHeldBy_unique held hheld
    simp [hold] at hj
  | _ => exact Bool.false_ne_true (hw.symm.trans (hopen hold))

theorem turn (h : c.Sound) (ht : Turn c a c') : c'.Sound where
  closing := h.closing_turn ht
  writing := h.writing_turn ht
  cancelled := h.cancelled_turn ht
  staged := h.staged_turn ht
  spoken := h.spoken_turn ht
  joiner := h.joiner_turn ht
  joined := h.joined_turn ht
  halted := h.halted_turn ht
  ended := h.ended_turn ht
  silent := h.silent_turn ht

end Sound

theorem sound_of_reachable {c : Connection} (h : Reachable c) : c.Sound := by
  induction h with
  | opened h => exact sound_ofStream h
  | step tell a _ hs ih => exact ih.turn (turn_of_step hs)

end Connection

end Fanout
