import Fanout.Proofs.Connection.Closing
import Fanout.Proofs.Connection.Path

namespace Fanout

def Call.isStart : Call → Bool
  | .listen none => true
  | _ => false

theorem countP_set_same {calls : List Call} {call call' : Call} {i : Nat} {p : Call → Bool}
    (hi : calls[i]? = some call) (h : p call' = p call) :
    (calls.set i call').countP p = calls.countP p := by
  obtain ⟨hlt, rfl⟩ := List.getElem?_eq_some_iff.mp hi
  have hpos : p calls[i] = true → 0 < calls.countP p := fun hp =>
    List.countP_pos_iff.mpr ⟨_, List.getElem_mem hlt, hp⟩
  rw [List.countP_set hlt, h]
  split
  · rename_i hp
    exact Nat.sub_add_cancel (hpos hp)
  · rfl

namespace Connection

variable {σ : Type} {tell : Sink σ} {c c' c₀ : Connection} {a : Action} {p q : Connection × σ}

def CloseBegun (c : Connection) : Prop :=
  ∃ call ∈ c.calls, call.isClose = true

structure Recorded (c : Connection) : Prop where
  started : c.calls.countP Call.isStart = c.started
  cancelled : c.cancelled = true ↔ c.CloseBegun

theorem recorded_ofStream {stream : Stream} {settings : Settings} {time : Timestamp}
    (h : ofStream stream settings time = .ok c) : c.Recorded := by
  rw [ofStream_fresh h]
  exact ⟨rfl, by simp [CloseBegun]⟩

theorem Turn.started_eq (ht : Turn c a c') (ha : a ≠ .listen) : c'.started = c.started := by
  cases ht with
  | listen => exact absurd rfl ha
  | _ => rfl

namespace Recorded

theorem concat {call : Call} (h : c.Recorded) (hcalls : c'.calls = c.calls ++ [call])
    (hstarted : c'.started = c.started + call.isStart.toNat)
    (hcancelled : c'.cancelled = (c.cancelled || call.isClose)) : c'.Recorded where
  started := by
    rw [hcalls, hstarted, ← h.started, List.countP_append, List.countP_singleton]
    cases call.isStart <;> rfl
  cancelled := by
    rw [hcancelled, Bool.or_eq_true, h.cancelled]
    simp [CloseBegun, hcalls, or_and_right, exists_or]

theorem moved (h : c.Recorded) {i : Nat} {call call' : Call} (hi : c.calls[i]? = some call)
    (hm : Moves c c' call call') (hcalls : c'.calls = c.calls.set i call')
    (hstarted : c'.started = c.started) (hcancelled : c'.cancelled = c.cancelled) :
    c'.Recorded where
  started := by
    have hsame : call'.isStart = call.isStart := by cases hm <;> rfl
    rw [hcalls, hstarted, countP_set_same hi hsame, h.started]
  cancelled := by
    have hcount : c.CloseBegun ↔ 0 < c.calls.countP Call.isClose := List.countP_pos_iff.symm
    have hcount' : c'.CloseBegun ↔ 0 < c'.calls.countP Call.isClose := List.countP_pos_iff.symm
    rw [hcancelled, h.cancelled, hcount, hcount', hcalls, countP_set_same hi hm.isClose]

theorem turn (h : c.Recorded) (ht : Turn c a c') : c'.Recorded := by
  by_cases ha : a.isCall = true
  · cases ht with
    | refuse | strand | listen | send => exact h.concat rfl rfl (Bool.or_false _).symm
    | close => exact h.concat rfl rfl (Bool.or_true _).symm
    | _ => exact absurd ha nofun
  · have hstarted : c'.started = c.started := ht.started_eq (by rintro rfl; exact ha rfl)
    have hcancelled : c'.cancelled = c.cancelled := ht.cancelled_eq (by rintro rfl; exact ha rfl)
    rcases ht.calls with heq | ⟨call, -, heq⟩ | ⟨i, call, call', hi, hm, heq⟩
    · exact ⟨by rw [heq, hstarted, h.started], by simp [hcancelled, h.cancelled, CloseBegun, heq]⟩
    · have hlength := ht.calls_length (Bool.eq_false_iff.mpr ha)
      simp [heq] at hlength
    · exact h.moved hi hm heq hstarted hcancelled

end Recorded

theorem Run.recorded (h : Run tell p q) (hp : p.1.Recorded) : q.1.Recorded := by
  induction h with
  | refl => exact hp
  | tail _ hn ih =>
    obtain ⟨a, ht⟩ := hn.turn
    exact ih.turn ht

theorem Sound.started_le (h : c.Sound) : c.started ≤ 1 := by
  have hs := h.staged
  cases hp : c.phase with
  | created => simp [Staged, hp] at hs; omega
  | listening => simp [Staged, hp] at hs; omega
  | disconnected =>
    simp only [Staged, hp] at hs
    rcases hs.2 with ⟨-, -, hs⟩ | ⟨-, hs⟩ <;> omega

theorem Sound.readHalf_kept (h : c.Sound) (hp : c.phase = .created) : c.readHalf = .kept := by
  have hs := h.staged
  simp only [Staged, hp] at hs
  exact hs.2.1

theorem Sound.receiving (h : c.Sound) (hp : c.phase = .listening) :
    c.isReceiving = true ∧ c.started = 1 := by
  have hs := h.staged
  simp only [Staged, hp] at hs
  obtain ⟨hreceiver, -, hstarted⟩ := hs
  refine ⟨?_, hstarted⟩
  rcases hreceiver with hr | hr <;> simp [isReceiving, hr]

inductive Answers (c : Connection) : Connection → Failure → Prop
  | started (hc : ¬ c.CloseBegun) (hp : c.phase = .created) :
      Answers c { c with
        phase := .listening
        readHalf := .lent
        receiver := .idle
        handle := true
        started := c.started + 1 } none
  | already (hc : ¬ c.CloseBegun) (hp : c.phase = .listening) :
      Answers c c (some .alreadyListening)
  | closed (h : c.CloseBegun ∨ c.phase = .disconnected) : Answers c c (some .closed)

theorem startListen_answers (hs : c.Sound) (hr : c.Recorded) :
    Answers c c.startListen.1 c.startListen.2 := by
  by_cases hbegun : c.CloseBegun
  · rw [startListen_cancelled (hr.cancelled.mpr hbegun)]
    exact .closed (.inl hbegun)
  · have hc : c.cancelled = false := by simpa using mt hr.cancelled.mp hbegun
    cases hp : c.phase with
    | created =>
      rw [startListen_kept hc hp (hs.readHalf_kept hp)]
      exact .started hbegun hp
    | listening =>
      have heq : c.startListen = (c, some .alreadyListening) := by simp [startListen, hc, hp]
      rw [heq]
      exact .already hbegun hp
    | disconnected =>
      have heq : c.startListen = (c, some .closed) := by simp [startListen, hc, hp]
      rw [heq]
      exact .closed (.inr hp)

namespace Answers

variable {failure : Failure}

theorem started_iff (h : Answers c c' failure) :
    failure = none ↔ ¬ c.CloseBegun ∧ c.phase = .created := by
  cases h with
  | started hc hp => exact ⟨fun _ => ⟨hc, hp⟩, fun _ => rfl⟩
  | already _ hp => simp [hp]
  | closed h =>
    refine ⟨nofun, fun ⟨hc, hp⟩ => ?_⟩
    simp [hc, hp] at h

theorem already_iff (h : Answers c c' failure) :
    failure = some .alreadyListening ↔ ¬ c.CloseBegun ∧ c.phase = .listening := by
  cases h with
  | started _ hp => simp [hp]
  | already hc hp => exact ⟨fun _ => ⟨hc, hp⟩, fun _ => rfl⟩
  | closed h =>
    refine ⟨nofun, fun ⟨hc, hp⟩ => ?_⟩
    simp [hc, hp] at h

theorem closed_iff (h : Answers c c' failure) :
    failure = some .closed ↔ c.CloseBegun ∨ c.phase = .disconnected := by
  cases h with
  | started hc hp | already hc hp => simp [hc, hp]
  | closed h => exact ⟨fun _ => h, fun _ => rfl⟩

theorem calls (h : Answers c c' failure) : c'.calls = c.calls := by
  cases h with
  | started | already | closed => rfl

theorem unchanged (h : Answers c c' failure) (hf : failure ≠ none) : c' = c := by
  cases h with
  | started => exact absurd rfl hf
  | already | closed => rfl

end Answers

theorem listening_starts_at_most_once (tell : Sink σ) {stream : Stream} {settings : Settings}
    {time : Timestamp} {s₀ s : σ} (opened : ofStream stream settings time = .ok c₀)
    (run : Run tell (c₀, s₀) (c, s)) :
    c.calls.countP Call.isStart = c.started ∧ c.started ≤ 1 ∧
      (c.phase = .created → c.cancelled = false → c.readHalf = .kept) ∧
      ∃ c' failure, c.step tell .listen s = some (c', s) ∧
        c'.calls = c.calls ++ [.listen failure] ∧
        (failure = none ↔ ¬ c.CloseBegun ∧ c.phase = .created) ∧
        (failure = some .alreadyListening ↔ ¬ c.CloseBegun ∧ c.phase = .listening) ∧
        (failure = some .closed ↔ c.CloseBegun ∨ c.phase = .disconnected) ∧
        (failure ≠ none → c' = c.addCall (.listen failure)) ∧
        (c'.phase = .listening → c'.isReceiving = true ∧ c'.started = 1) := by
  have hsound : c.Sound := run.sound (sound_ofStream opened)
  have hrecorded : c.Recorded := run.recorded (recorded_ofStream opened)
  have hanswers := startListen_answers hsound hrecorded
  refine ⟨hrecorded.started, hsound.started_le, fun hp _ => hsound.readHalf_kept hp, c.listen.1,
    c.startListen.2, rfl, ?_, hanswers.started_iff, hanswers.already_iff, hanswers.closed_iff, ?_,
    ?_⟩
  · simp only [listen_eq, addCall, hanswers.calls]
  · intro hf
    rw [listen_eq, hanswers.unchanged hf]
  · exact (hsound.turn (turn_listen c)).receiving

theorem second_start_is_refused :
    ∃ c c' : Connection, Run deaf (greeted [104], ()) (c, ()) ∧
      c.calls = [.listen none, .listen (some .alreadyListening), .close .queued] ∧
      c.calls.countP Call.isStart = 1 ∧ c.step deaf .listen () = some (c', ()) ∧
      c' = c.addCall (.listen (some .closed)) := by
  have run : Run deaf (greeted [104], ()) _ := run_of_steps [.listen, .look, .listen, .close] rfl
  obtain ⟨starts, -, -, c', failure, hstep, -, -, -, closed, unchanged, -⟩ :=
    listening_starts_at_most_once deaf (ofStream_greeted [104]) run
  obtain rfl : failure = some .closed := closed.mpr (.inl ⟨.close .queued, by decide, rfl⟩)
  exact ⟨_, c', run, rfl, starts, hstep, unchanged nofun⟩

end Connection

end Fanout
