import Fanout.Proofs.Connection.Turn
import Fanout.Proofs.Lock.Standing

namespace Fanout

def ClosePoint.isOver : ClosePoint → Bool
  | .done _ => true
  | .crashed => true
  | _ => false

/-- From here on the write half and the handle of the receive task are gone. -/
def ClosePoint.isHalted : ClosePoint → Bool
  | .queued => false
  | .draining => false
  | _ => true

def Call.isClose : Call → Bool
  | .close _ => true
  | _ => false

theorem Call.eq_close {call : Call} (h : call.isClose = true) : ∃ p, call = .close p := by
  cases call with
  | close p => exact ⟨p, rfl⟩
  | listen | send => simp [isClose] at h

namespace Connection

inductive Begins (c' : Connection) : Call → Prop
  | listen (failure : Failure) : Begins c' (.listen failure)
  | send (payload : List UInt8) : Begins c' (.send payload .queued)
  | close (hc : c'.cancelled = true) : Begins c' (.close .queued)

inductive Moves (c c' : Connection) : Call → Call → Prop
  | turnAway (payload : List UInt8) (hw : c.writeHalf = false) :
      Moves c c' (.send payload .queued) (.send payload (.done 0 (some .closed)))
  | sendNothing (hw : c.writeHalf = true) : Moves c c' (.send [] .queued) (.send [] (.done 0 none))
  | startWriting (payload : List UInt8) (hw : c.writeHalf = true) (hw' : c'.writeHalf = true) :
      Moves c c' (.send payload .queued) (.send payload (.writing 0))
  | write (payload : List UInt8) (written n : Nat) :
      Moves c c' (.send payload (.writing written)) (.send payload (.writing (written + n)))
  | endWriting (payload : List UInt8) (written written' : Nat) (failure : Failure) :
      Moves c c' (.send payload (.writing written)) (.send payload (.done written' failure))
  | obtainClosing : Moves c c' (.close .queued) (.close .draining)
  | halt (failure : Failure) (hf : c.writeHalf = false → failure = none) (hh : c'.handle = false)
      (hw : c'.writeHalf = false) :
      Moves c c' (.close .draining) (.close (.joining c.handle failure))
  | finishClose {tookHandle : Bool} {failure : Failure} {p : ClosePoint}
      (joined : tookHandle = true → c.receiver.hasEnded = true)
      (hp : p = .done failure ∨ p = .crashed ∧ c.phase ≠ .disconnected)
      (hphase : c'.phase = .disconnected) :
      Moves c c' (.close (.joining tookHandle failure)) (.close p)

variable {c c' : Connection} {a : Action}

theorem calls_listen (x : Connection) :
    ∃ failure, x.listen.1.calls = x.calls ++ [.listen failure] := by
  refine ⟨x.startListen.2, ?_⟩
  rw [listen_eq]
  unfold startListen
  split
  · rfl
  · split
    · rfl
    · rfl
    · dsimp only
      split <;> rfl

theorem listen_receiver (x : Connection) (h : x.receiver ≠ .ended .aborted) :
    x.listen.1.receiver ≠ .ended .aborted := by
  generalize hx : x.listen.1 = x'
  cases hx ▸ turn_listen x with
  | refuse | strand => exact h
  | listen => exact nofun

theorem Moves.isClose {call call' : Call} (h : Moves c c' call call') :
    call'.isClose = call.isClose := by
  cases h <;> rfl

theorem Moves.unended {call call' : Call} (h : Moves c c' call call') : call.ending? = none := by
  cases h <;> rfl

namespace Turn

theorem calls (ht : Turn c a c') :
    c'.calls = c.calls ∨ (∃ call, Begins c' call ∧ c'.calls = c.calls ++ [call]) ∨
      ∃ i call call', c.calls[i]? = some call ∧ Moves c c' call call' ∧
        c'.calls = c.calls.set i call' := by
  cases ht with
  | refuse | strand | listen => exact .inr (.inl ⟨_, .listen _, rfl⟩)
  | send => exact .inr (.inl ⟨_, .send _, rfl⟩)
  | close => exact .inr (.inl ⟨_, .close rfl, rfl⟩)
  | turnAway hi _ hw => exact .inr (.inr ⟨_, _, _, hi, .turnAway _ hw, rfl⟩)
  | sendNothing hi _ hw => exact .inr (.inr ⟨_, _, _, hi, .sendNothing hw, rfl⟩)
  | startWriting hi _ hw => exact .inr (.inr ⟨_, _, _, hi, .startWriting _ hw hw, rfl⟩)
  | write hi => exact .inr (.inr ⟨_, _, _, hi, .write _ _ _, rfl⟩)
  | finishWriting hi | failWrite _ hi | writeExpired hi =>
    exact .inr (.inr ⟨_, _, _, hi, .endWriting _ _ _ _, rfl⟩)
  | obtainClosing hi => exact .inr (.inr ⟨_, _, _, hi, .obtainClosing, rfl⟩)
  | halt how hi =>
    exact .inr (.inr ⟨_, _, _, hi, .halt _ (fun hw => by simp [hw]) rfl rfl, rfl⟩)
  | finishClose hi joined hp => exact .inr (.inr ⟨_, _, _, hi, .finishClose joined hp rfl, rfl⟩)
  | look | quit | deliver | unwind | hangUp | wait | arrive | finish => exact .inl rfl

theorem calls_length (ht : Turn c a c') (ha : a.isCall = false) :
    c'.calls.length = c.calls.length := by
  cases ht with
  | refuse | strand | listen | send | close => simp [Action.isCall] at ha
  | turnAway | sendNothing | startWriting | write | finishWriting | failWrite | writeExpired
  | obtainClosing | halt | finishClose => exact List.length_set
  | _ => rfl

theorem call_origin (ht : Turn c a c') {j : Nat} {call' : Call} (hj : c'.calls[j]? = some call') :
    c.calls[j]? = some call' ∨ (j = c.calls.length ∧ Begins c' call') ∨
      ∃ call, c.calls[j]? = some call ∧ Moves c c' call call' := by
  rcases ht.calls with heq | ⟨call, hb, heq⟩ | ⟨i, call, new, hi, hm, heq⟩
  · exact .inl (heq ▸ hj)
  · rw [heq] at hj
    rcases getElem?_concat_eq_some.mp hj with ⟨hlen, rfl⟩ | hold
    · exact .inr (.inl ⟨hlen, hb⟩)
    · exact .inl hold
  · rw [heq] at hj
    rcases (getElem?_set_eq_some hi).mp hj with ⟨rfl, rfl⟩ | ⟨-, hold⟩
    · exact .inr (.inr ⟨call, hi, hm⟩)
    · exact .inl hold

theorem call_onward (ht : Turn c a c') {j : Nat} {call : Call} (hj : c.calls[j]? = some call) :
    c'.calls[j]? = some call ∨ ∃ call', c'.calls[j]? = some call' ∧ Moves c c' call call' := by
  rcases ht.calls with heq | ⟨call, hb, heq⟩ | ⟨i, old, new, hi, hm, heq⟩
  · exact .inl (heq ▸ hj)
  · rw [heq]
    exact .inl (getElem?_concat_eq_some.mpr (.inr hj))
  · rw [heq]
    by_cases hji : j = i
    · subst hji
      obtain rfl := Option.some.inj (hi.symm.trans hj)
      exact .inr ⟨new, (getElem?_set_eq_some hi).mpr (.inl ⟨rfl, rfl⟩), hm⟩
    · exact .inl ((getElem?_set_eq_some hi).mpr (.inr ⟨hji, hj⟩))

theorem cancelled_mono (ht : Turn c a c') (h : c.cancelled = true) : c'.cancelled = true := by
  cases ht with
  | close => rfl
  | _ => exact h

theorem cancelled_eq (ht : Turn c a c') (ha : a ≠ .close) : c'.cancelled = c.cancelled := by
  cases ht with
  | close => exact absurd rfl ha
  | _ => rfl

theorem disconnected_mono (ht : Turn c a c') (h : c.phase = .disconnected) :
    c'.phase = .disconnected := by
  cases ht with
  | strand hp | listen _ hp => simp [h] at hp
  | finishClose | quit | unwind | hangUp => rfl
  | _ => exact h

theorem writeHalf_mono (ht : Turn c a c') (h : c.writeHalf = false) : c'.writeHalf = false := by
  cases ht with
  | halt => rfl
  | _ => exact h

end Turn

end Connection

end Fanout
