import Fanout.Proofs.Connection.Lifecycle
import Fanout.Proofs.Connection.Shut

namespace Fanout

def Signal.payload? : Signal → Option (List UInt8)
  | .message payload => some payload
  | .disconnected _ => none

namespace Connection

variable {σ : Type} {tell : Sink σ} {c c' c₀ : Connection} {a : Action} {p q : Connection × σ}

def heard (told : List (Phase × Signal)) : List (List UInt8) :=
  told.filterMap fun entry => entry.2.payload?

def delivered (signals : List Signal) : List (List UInt8) :=
  signals.filterMap Signal.payload?

theorem delivered_farewell (c : Connection) (signals : List Signal) (reason : Reason) :
    delivered (signals ++ c.farewell reason) = delivered signals := by
  unfold farewell
  split <;> simp [delivered, Signal.payload?]

/-- The call has not ended otherwise, and it can end so, whatever happens first. -/
def EndsAs (tell : Sink σ) (p : Connection × σ) (i : Nat) (call : Call) : Prop :=
  ∀ q, Run tell p q →
    ((q.1.ending? i).isSome = true → q.1.calls[i]? = some call) ∧
      ∃ r, Run tell q r ∧ r.1.calls[i]? = some call

theorem calls_length_mono (h : Run tell p q) : p.1.calls.length ≤ q.1.calls.length := by
  induction h with
  | refl => exact Nat.le_refl _
  | tail _ hn ih =>
    obtain ⟨a, ht⟩ := hn.turn
    refine Nat.le_trans ih ?_
    rcases ht.calls with heq | ⟨call, -, heq⟩ | ⟨i, call, call', -, -, heq⟩ <;> simp [heq]

theorem endsAs_of_kept (h : p.1.Shut) {i : Nat} (hi : i < p.1.calls.length) {call : Call}
    (kept : ∀ q, Run tell p q → (q.1.ending? i).isSome = true → q.1.calls[i]? = some call) :
    EndsAs tell p i call := by
  intro q hq
  have hlt : i < q.1.calls.length := Nat.lt_of_lt_of_le hi (calls_length_mono hq)
  obtain ⟨c', hrun, hended⟩ := (h.run hq).1.exists_ending tell q.2 hlt
  exact ⟨kept q hq, (c', q.2), hrun, kept _ (hq.trans hrun) hended⟩

theorem send_on_shut (h : p.1.Shut) {i : Nat} {payload : List UInt8}
    (hi : p.1.calls[i]? = some (.send payload .queued)) (hr : Run tell p q) :
    q.1.calls[i]? = some (.send payload .queued) ∨
      q.1.calls[i]? = some (.send payload (.done 0 (some .closed))) := by
  induction hr with
  | refl => exact .inl hi
  | @tail q r hpq hn ih =>
    obtain ⟨a, ht⟩ := hn.turn
    have hw := (h.run hpq).1.writeHalf
    rcases ih with hcall | hcall
    · rcases ht.call_onward hcall with hsame | ⟨call, hnew, hm⟩
      · exact .inl hsame
      · cases hm with
        | turnAway => exact .inr hnew
        | sendNothing hw' | startWriting _ hw' => simp [hw] at hw'
    · rcases ht.call_onward hcall with hsame | ⟨call, -, hm⟩
      · exact .inr hsame
      · exact absurd hm.unended (by simp [Call.ending?])

inductive Smooth : ClosePoint → Prop
  | queued : Smooth .queued
  | draining : Smooth .draining
  | joining (tookHandle : Bool) : Smooth (.joining tookHandle none)
  | done : Smooth (.done none)

theorem close_on_shut (h : p.1.Shut) {i : Nat} (hi : p.1.calls[i]? = some (.close .queued))
    (hr : Run tell p q) : ∃ point, q.1.calls[i]? = some (.close point) ∧ Smooth point := by
  induction hr with
  | refl => exact ⟨.queued, hi, .queued⟩
  | @tail q r hpq hn ih =>
    obtain ⟨a, ht⟩ := hn.turn
    have hq := (h.run hpq).1
    obtain ⟨point, hcall, hsmooth⟩ := ih
    rcases ht.call_onward hcall with hsame | ⟨call, hnew, hm⟩
    · exact ⟨point, hsame, hsmooth⟩
    · cases hm with
      | obtainClosing => exact ⟨_, hnew, .draining⟩
      | halt failure hf =>
        obtain rfl := hf hq.writeHalf
        exact ⟨_, hnew, .joining _⟩
      | finishClose _ hpoint =>
        cases hsmooth
        rcases hpoint with rfl | ⟨-, hphase⟩
        · exact ⟨_, hnew, .done⟩
        · exact absurd hq.phase hphase

theorem send_endsAs_closed (h : c.Shut) (payload : List UInt8) (s : σ) :
    EndsAs tell (c.beginSend payload, s) c.calls.length
      (.send payload (.done 0 (some .closed))) := by
  have hnew : (c.beginSend payload).calls[c.calls.length]? = some (.send payload .queued) :=
    getElem?_concat_eq_some.mpr (.inl ⟨rfl, rfl⟩)
  have hshut : (c.beginSend payload).Shut := h.turn (.send payload)
  refine endsAs_of_kept hshut (by simp [beginSend, addCall]) ?_
  intro q hq hended
  rcases send_on_shut hshut hnew hq with hcall | hcall
  · simp [Connection.ending?, hcall, Call.ending?] at hended
  · exact hcall

theorem close_endsAs_done (h : c.Shut) (s : σ) :
    EndsAs tell (c.beginClose, s) c.calls.length (.close (.done none)) := by
  have hnew : c.beginClose.calls[c.calls.length]? = some (.close .queued) :=
    getElem?_concat_eq_some.mpr (.inl ⟨rfl, rfl⟩)
  have hshut : c.beginClose.Shut := h.turn .close
  refine endsAs_of_kept hshut (by simp [beginClose, addCall]) ?_
  intro q hq hended
  obtain ⟨point, hcall, hsmooth⟩ := close_on_shut hshut hnew hq
  cases hsmooth with
  | done => exact hcall
  | _ => simp [Connection.ending?, hcall, Call.ending?] at hended

/-- Since `c₀`, which was cancelled, only the round that was under way there has delivered anything.
-/
def Past (c₀ c : Connection) : Prop :=
  delivered c.signals = delivered c₀.signals ∧ (c.receiver = .reading → c₀.receiver = .reading) ∨
    c₀.receiver = .reading ∧ c.receiver ≠ .reading ∧
      ∃ payload, delivered c.signals = delivered c₀.signals ++ [payload]

theorem past_turn (hc : c.cancelled = true) (h : Past c₀ c) (ht : Turn c a c') : Past c₀ c' := by
  have began (hr : c.receiver = .reading) :
      delivered c.signals = delivered c₀.signals ∧ c₀.receiver = .reading := by
    rcases h with ⟨hd, hreading⟩ | ⟨-, hn, -⟩
    · exact ⟨hd, hreading hr⟩
    · exact absurd hr hn
  cases ht with
  | listen hc' | look _ hc' => simp [hc] at hc'
  | finishClose =>
    unfold Past
    rw [delivered_farewell]
    exact h
  | quit _ hr =>
    unfold Past
    rw [delivered_farewell]
    rcases h with ⟨hd, -⟩ | ⟨h₀, -, hd⟩
    · exact .inl ⟨hd, nofun⟩
    · exact .inr ⟨h₀, nofun, hd⟩
  | deliver hr =>
    obtain ⟨hd, h₀⟩ := began hr
    refine .inr ⟨h₀, nofun, c.nextPayload, ?_⟩
    simp [delivered, Signal.payload?] at hd ⊢
    exact hd
  | unwind _ hr =>
    obtain ⟨hd, h₀⟩ := began hr
    refine .inr ⟨h₀, nofun, c.nextPayload, ?_⟩
    rw [delivered_farewell]
    simp [delivered, Signal.payload?] at hd ⊢
    exact hd
  | hangUp _ _ hr =>
    obtain ⟨hd, h₀⟩ := began hr
    refine .inl ⟨?_, nofun⟩
    rw [delivered_farewell]
    exact hd
  | wait hr => exact .inl ⟨(began hr).1, nofun⟩
  | _ => exact h

theorem past_run (hc : p.1.cancelled = true) (hr : Run tell p q) :
    q.1.cancelled = true ∧ Past p.1 q.1 := by
  induction hr with
  | refl => exact ⟨hc, .inl ⟨rfl, id⟩⟩
  | tail _ hn ih =>
    obtain ⟨a, ht⟩ := hn.turn
    exact ⟨ht.cancelled_mono ih.1, past_turn ih.1 ih.2 ht⟩

theorem look_cancelled {s s' : σ} (hc : c.cancelled = true)
    (h : c.step tell .look s = some (c', s')) :
    c'.receiver.hasEnded = true ∧ delivered c'.signals = delivered c.signals := by
  cases turn_of_step h with
  | look _ hc' => simp [hc] at hc'
  | quit => exact ⟨rfl, delivered_farewell c c.signals _⟩

theorem startListen_cancelled {c : Connection} (hc : c.cancelled = true) :
    c.startListen = (c, some .closed) := by
  simp [startListen, hc]

theorem Shut.isReleased (h : c.Shut) : c.isReleased = true := by
  simp [Connection.isReleased, h.readHalf, h.writeHalf]

theorem heard_eq_delivered {told : List (Phase × Signal)} (h : Noted c told) :
    heard told = delivered c.signals := by
  rw [← h.signals, delivered, List.filterMap_map]
  rfl

theorem close_is_final (tell : Sink σ) {stream : Stream} {settings : Settings} {time : Timestamp}
    {s₀ s : σ} {told : List (Phase × Signal)} (opened : ofStream stream settings time = .ok c₀)
    (run : Run (noted tell) (c₀, s₀, []) (c, s, told)) :
    (∀ (i : Nat) (failure : Failure), c.calls[i]? = some (.close (.done failure)) →
      (c.started = 0 ∨ c.receiver.hasEnded = true) ∧ c.phase = .disconnected ∧
        told.countP (fun entry => entry.2.isDisconnection) = 1 ∧ c.isReleased = true ∧
        ∀ c' s', Run (noted tell) (c, s, told) (c', s') →
          s' = (s, told) ∧ c'.wire = c.wire ∧ c'.startListen = (c', some .closed) ∧
            (∀ payload, EndsAs (noted tell) (c'.beginSend payload, s') c'.calls.length
              (.send payload (.done 0 (some .closed)))) ∧
            EndsAs (noted tell) (c'.beginClose, s') c'.calls.length (.close (.done none))) ∧
      (c.cancelled = true → ∀ c' s' told', Run (noted tell) (c, s, told) (c', s', told') →
        (∀ c'' s'' told'', c'.step (noted tell) .look (s', told') = some (c'', s'', told'') →
          c''.receiver.hasEnded = true ∧ heard told'' = heard told') ∧
          (heard told' = heard told ∨
            c.receiver = .reading ∧ ∃ payload, heard told' = heard told ++ [payload])) := by
  have hsound : c.Sound := run.sound (sound_ofStream opened)
  have hnoted : Noted c told :=
    noted_run (p := (c₀, s₀, [])) ⟨by simp [ofStream_fresh opened], by simp⟩ run
  refine ⟨?_, ?_⟩
  · intro i failure hi
    have hshut := hsound.shut hi rfl
    refine ⟨hshut.receiver.imp And.right And.left, hshut.phase, ?_, hshut.isReleased, ?_⟩
    · have hcount := count_disconnections hsound.spoken
      rw [if_pos hshut.phase, ← hnoted.signals, List.countP_map] at hcount
      exact hcount
    · intro c' s' hrun
      obtain ⟨hshut', hsink, -, hwire⟩ := hshut.run (p := (c, s, told)) hrun
      exact ⟨hsink, hwire, startListen_cancelled hshut'.cancelled,
        fun payload => send_endsAs_closed hshut' payload s', close_endsAs_done hshut' s'⟩
  · intro hc c' s' told' hrun
    have hnoted' : Noted c' told' := noted_run (p := (c, s, told)) hnoted hrun
    obtain ⟨hc', hpast⟩ := past_run (p := (c, s, told)) hc hrun
    refine ⟨?_, ?_⟩
    · intro c'' s'' told'' hlook
      have hnoted'' : Noted c'' told'' := noted_step (s := (s', told')) hnoted' hlook
      obtain ⟨hended, hsame⟩ := look_cancelled hc' hlook
      rw [heard_eq_delivered hnoted'', heard_eq_delivered hnoted']
      exact ⟨hended, hsame⟩
    · rw [heard_eq_delivered hnoted', heard_eq_delivered hnoted]
      exact hpast.imp And.left fun ⟨hr, _, hd⟩ => ⟨hr, hd⟩

theorem close_is_final_after_raise :
    ∃ (c : Connection) (told : List (Phase × Signal)),
      Run (noted raising) (greeted [104, 105], (), []) (c, (), told) ∧
        c.calls[1]? = some (.close (.done none)) ∧ c.cancelled = true ∧ c.isReleased = true ∧
        EndsAs (noted raising) (c.beginSend [33], (), told) c.calls.length
          (.send [33] (.done 0 (some .closed))) := by
  have run : Run (noted raising) (greeted [104, 105], (), []) _ :=
    run_of_steps
      [.listen, .look, .close, .obtainClosing 1, .halt 1 .halted, .read, .finishClose 1] rfl
  have final := (close_is_final raising (ofStream_greeted [104, 105]) run).1 1 none rfl
  obtain ⟨-, -, -, released, after⟩ := final
  exact ⟨_, _, run, rfl, rfl, released, (after _ _ .refl).2.2.2.1 [33]⟩

end Connection

end Fanout
