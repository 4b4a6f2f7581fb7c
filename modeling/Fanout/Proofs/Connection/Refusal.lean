import Fanout.Proofs.Connection.Shut

namespace Fanout

namespace Connection

variable {σ : Type} {tell : Sink σ} {c c' : Connection} {a : Action} {s s' : σ}

structure Unheard (c : Connection) : Prop where
  calls : c.calls = []
  phase : c.phase = .created
  cancelled : c.cancelled = false

structure Refused (c : Connection) : Prop where
  calls : ∃ p, c.calls = [.close p]
  receiver : c.receiver = .absent

theorem unheard_ofStream {stream : Stream} {settings : Settings} {time : Timestamp}
    (h : ofStream stream settings time = .ok c) : c.Unheard := by
  unfold ofStream at h
  split at h
  · exact absurd h (by simp)
  · obtain rfl := Except.ok.inj h
    exact ⟨rfl, rfl, rfl⟩

namespace Unheard

theorem receiver (h : c.Unheard) (hs : c.Sound) : c.receiver = .absent ∧ c.readHalf = .kept := by
  have hstaged := hs.staged
  simp only [Staged, h.phase] at hstaged
  exact ⟨hstaged.1, hstaged.2.1⟩

theorem turn (h : c.Unheard) (hs : c.Sound) (ht : Turn c a c') (ha : a.isCall = false) :
    c'.Unheard := by
  obtain ⟨hr, -⟩ := h.receiver hs
  cases ht with
  | refuse | strand | listen | send | close => simp [Action.isCall] at ha
  | turnAway hi | sendNothing hi | startWriting hi | write hi | finishWriting hi | failWrite _ hi
  | writeExpired hi | obtainClosing hi | halt _ hi | finishClose hi => simp [h.calls] at hi
  | look hr' | quit _ hr' | deliver hr' | unwind _ hr' | hangUp _ _ hr' | wait hr' =>
    simp [hr] at hr'
  | arrive | finish => exact ⟨h.calls, h.phase, h.cancelled⟩

theorem listen (h : c.Unheard) (hs : c.Sound) :
    c.listen.2 = none ∧ c.listen.1.phase = .listening := by
  rw [listen_eq, startListen_kept h.cancelled h.phase (h.receiver hs).2]
  exact ⟨rfl, rfl⟩

theorem beginClose (h : c.Unheard) (hs : c.Sound) : c.beginClose.Refused :=
  ⟨⟨.queued, by simp [Connection.beginClose, addCall, h.calls]⟩, (h.receiver hs).1⟩

end Unheard

namespace Refused

theorem call_eq (h : c.Refused) {i : Nat} {call : Call} (hi : c.calls[i]? = some call) :
    i = 0 ∧ ∃ p, call = .close p := by
  obtain ⟨p, hc⟩ := h.calls
  rw [hc] at hi
  cases i with
  | zero => exact ⟨rfl, p, (Option.some.inj hi).symm⟩
  | succ i => simp at hi

theorem turn (h : c.Refused) (ht : Turn c a c') (ha : a.isCall = false) : c'.Refused := by
  obtain ⟨p, hc⟩ := h.calls
  have hr := h.receiver
  have closes {i : Nat} {p' : ClosePoint} (hi : c.calls[i]? = some (.close p')) (new : ClosePoint) :
      c.calls.set i (.close new) = [.close new] := by
    obtain ⟨rfl, -⟩ := h.call_eq hi
    simp [hc]
  cases ht with
  | refuse | strand | listen | send | close => simp [Action.isCall] at ha
  | turnAway hi | sendNothing hi | startWriting hi | write hi | finishWriting hi | failWrite _ hi
  | writeExpired hi =>
    obtain ⟨-, p, hp⟩ := h.call_eq hi
    simp at hp
  | obtainClosing hi | halt _ hi | finishClose hi => exact ⟨⟨_, closes hi _⟩, hr⟩
  | look hr' | quit _ hr' | deliver hr' | unwind _ hr' | hangUp _ _ hr' | wait hr' =>
    simp [hr] at hr'
  | arrive | finish => exact ⟨h.calls, h.receiver⟩

theorem progress (tell : Sink σ) (s : σ) (h : c.Refused) (hs : c.Sound)
    (hu : c.ending? 0 = none) :
    ∃ a c' s', a.isCall = false ∧ c.step tell a s = some (c', s') ∧ c'.work < c.work := by
  obtain ⟨p, hc⟩ := h.calls
  have hcall : c.calls[0]? = some (.close p) := by simp [hc]
  have hunended : (Call.close p).ending? = none := by simpa [ending?, hcall] using hu
  obtain ⟨a, ha, hgoes⟩ := hs.drains (by simp [isReceiving, h.receiver]) hcall hunended
  obtain ⟨⟨c', s'⟩, hstep⟩ := hgoes tell s
  exact ⟨a, c', s', Action.not_call_of_draining ha, hstep,
    ((turn_of_step hstep).drains ha).1.2⟩

end Refused

theorem disconnect_raised {reason : Reason} (h : (c.disconnect tell reason s).2.2 = .raised) :
    ∃ c₀ signal s₀, (tell c₀ signal s₀).2 = .raised := by
  unfold disconnect at h
  split at h
  · simp at h
  · exact ⟨_, _, _, h⟩

theorem finishClose_crashed {i : Nat} (h : c.finishClose tell i s = some (c', s'))
    (hi : c'.calls[i]? = some (.close .crashed)) :
    ∃ c₀ signal s₀, (tell c₀ signal s₀).2 = .raised := by
  unfold finishClose at h
  split at h
  · rename_i tookHandle failure hcall
    split at h
    · exact absurd h (by simp)
    · simp only [disconnect_fst, Option.some.injEq, Prod.mk.injEq] at h
      rw [← h.1] at hi
      rcases (getElem?_set_eq_some hcall).mp hi with ⟨-, hp⟩ | ⟨hne, -⟩
      · split at hp
        · simp at hp
        · rename_i hout
          exact disconnect_raised hout
      · exact absurd rfl hne
  · exact absurd h (by simp)

theorem ending?_eq_crashed {i : Nat} :
    c.ending? i = some .crashed ↔ c.calls[i]? = some (.close .crashed) := by
  simp only [ending?, Option.bind_eq_some_iff]
  constructor
  · rintro ⟨call, hcall, he⟩
    cases call with
    | close p => cases p <;> first | exact hcall | simp [Call.ending?] at he
    | send payload p => cases p <;> simp [Call.ending?] at he
    | listen => simp [Call.ending?] at he
  · intro hcall
    exact ⟨_, hcall, rfl⟩

theorem Turn.crashed_of_call (ht : Turn c a c') (ha : a.isCall = true) {i : Nat}
    (hi : c'.calls[i]? = some (.close .crashed)) : c.calls[i]? = some (.close .crashed) := by
  cases ht with
  | refuse | strand | listen | send | close =>
    exact (getElem?_concat_eq_some.mp hi).resolve_left fun hnew => absurd hnew.2 nofun
  | _ => simp [Action.isCall] at ha

theorem crashed_origin (h : c.step tell a s = some (c', s')) {i : Nat}
    (hi : c'.calls[i]? = some (.close .crashed)) :
    c.calls[i]? = some (.close .crashed) ∨ ∃ c₀ signal s₀, (tell c₀ signal s₀).2 = .raised := by
  cases turn_of_step h with
  | refuse | strand | listen | send | close =>
    exact .inl ((turn_of_step h).crashed_of_call rfl hi)
  | turnAway hj | sendNothing hj | startWriting hj | write hj | finishWriting hj | failWrite _ hj
  | writeExpired hj | obtainClosing hj | halt _ hj =>
    rcases (getElem?_set_eq_some hj).mp hi with ⟨-, hnew⟩ | ⟨-, hold⟩
    · simp at hnew
    · exact .inl hold
  | @finishClose j _ _ _ hj =>
    by_cases hji : i = j
    · subst hji
      exact .inr (finishClose_crashed h hi)
    · exact .inl (((getElem?_set_eq_some hj).mp hi).resolve_left fun hnew => hji hnew.1).2
  | look | quit | deliver | unwind | hangUp | wait | arrive | finish => exact .inl hi

end Connection

end Fanout
