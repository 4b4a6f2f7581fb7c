import Fanout.Proofs.Connection.Draining
import Fanout.Proofs.Connection.Run
import Fanout.Proofs.Connection.Telling

namespace Fanout.Connection

def Action.isEasing : Action → Bool
  | .obtainWriter _ | .obtainClosing _ | .halt _ _ | .finishClose _ => true
  | _ => false

/-- A connection that is down and has no sender that could hold up its closers. -/
structure Ebbing (c : Connection) : Prop where
  sound : c.Sound
  phase : c.phase = .disconnected
  unheld : c.writeHalf = true → ∀ {i : Nat} {payload : List UInt8} {point : SendPoint},
    c.writing.isHeldBy i = true → c.calls[i]? ≠ some (.send payload point)

variable {σ : Type} {tell : Sink σ} {c c' : Connection} {a : Action} {s s' : σ} {i j : Nat}
  {call : Call}

theorem Sound.readHalf_of_disconnected (h : c.Sound) (hp : c.phase = .disconnected) :
    c.readHalf = .gone := by
  have hs := h.staged
  simp only [Staged, hp] at hs
  exact hs.1

theorem Sound.receiver_of_disconnected (h : c.Sound) (hp : c.phase = .disconnected) :
    c.receiver = .absent ∧ c.started = 0 ∨ c.receiver.hasEnded = true ∧ c.started = 1 := by
  have hs := h.staged
  simp only [Staged, hp] at hs
  exact hs.2.imp_left (And.imp_right And.right)

theorem Sound.not_receiving (h : c.Sound) (hp : c.phase = .disconnected) :
    c.isReceiving = false := by
  rcases h.receiver_of_disconnected hp with ⟨hr, -⟩ | ⟨hr, -⟩
  · simp [isReceiving, hr]
  · cases hrc : c.receiver <;> simp_all [isReceiving, Receiver.hasEnded]

theorem quiet_of_draining (ha : a.isDraining = true) (hs : c.step tell a s = some (c', s'))
    (down : ∀ i, a = .finishClose i → c.phase = .disconnected) : s' = s := by
  refine quiet_of_signals hs ?_
  cases turn_of_step hs with
  | turnAway | sendNothing | startWriting | writeExpired | obtainClosing | halt => rfl
  | finishClose => simp [farewell, down _ rfl]
  | _ => simp [Action.isDraining] at ha

/-- A close of a connection that is down has nobody left to tell, and so it cannot be left early. -/
def Settles (c : Connection) (i : Nat) : Prop :=
  c.phase = .disconnected ∧ ∃ p, c.calls[i]? = some (.close p) ∧ p ≠ .crashed

theorem Settles.turn (h : c.Settles i) (ht : Turn c a c') : c'.Settles i := by
  obtain ⟨hphase, p, hi, hp⟩ := h
  refine ⟨ht.disconnected_mono hphase, ?_⟩
  rcases ht.call_onward hi with hsame | ⟨call, hnew, hm⟩
  · exact ⟨p, hsame, hp⟩
  · cases hm with
    | obtainClosing | halt => exact ⟨_, hnew, nofun⟩
    | finishClose _ hpoint =>
      rcases hpoint with rfl | ⟨-, hup⟩
      · exact ⟨_, hnew, nofun⟩
      · exact absurd hphase hup

theorem Settles.not_crashed (h : c.Settles i) : c.ending? i ≠ some .crashed := by
  obtain ⟨-, p, hi, hp⟩ := h
  cases p <;> simp_all [ending?, Call.ending?]

theorem settles_beginClose (hp : c.phase = .disconnected) :
    c.beginClose.Settles c.calls.length :=
  ⟨hp, .queued, getElem?_concat_eq_some.mpr (.inl ⟨rfl, rfl⟩), nofun⟩

namespace Ebbing

theorem unwritten (h : c.Ebbing) {written : Nat} {payload : List UInt8} :
    c.calls[j]? ≠ some (.send payload (.writing written)) := by
  intro hj
  cases hw : c.writeHalf with
  | true => exact h.unheld hw (h.sound.writing.held j (by simp [hj, Call.writingStanding])) hj
  | false => exact h.sound.silent hw hj

theorem turn (h : c.Ebbing) (ht : Turn c a c') (ha : ∀ payload, a ≠ .send payload) :
    c'.Ebbing := by
  refine ⟨h.sound.turn ht, ht.disconnected_mono h.phase, ?_⟩
  intro hw i payload point held hi
  have appended {call : Call} (hw : c.writeHalf = true) (held : c.writing.isHeldBy i = true)
      (hi : (c.calls ++ [call])[i]? = some (.send payload point)) :
      call = .send payload point := by
    rcases getElem?_concat_eq_some.mp hi with ⟨-, hnew⟩ | hold
    · exact hnew.symm
    · exact absurd hold (h.unheld hw held)
  cases ht with
  | refuse | strand | listen | close => cases appended hw held hi
  | send payload => exact absurd rfl (ha payload)
  | turnAway _ _ hw' => cases hw'.symm.trans hw
  | sendNothing hj first hw' | startWriting hj first hw' => exact h.unheld hw' first hj
  | write hj | finishWriting hj | failWrite _ hj | writeExpired hj => exact absurd hj h.unwritten
  | @obtainClosing j hj =>
    rcases (getElem?_set_eq_some hj).mp hi with ⟨-, hnew⟩ | ⟨hne, hold⟩
    · cases hnew
    · -- Whoever is first now was first before the closer came to the queue.
      refine h.unheld hw ?_ hold
      cases hq : c.writing.queue with
      | nil =>
        have hfirst : (c.writing.join j).isHeldBy j = true := by simp [Lock.join, Lock.isHeldBy, hq]
        exact absurd (Lock.isHeldBy_unique held hfirst) hne
      | cons first rest =>
        have hfirst : c.writing.isHeldBy first = true := (Lock.isHeldBy_iff _ _).mpr ⟨rest, hq⟩
        obtain rfl := Lock.isHeldBy_unique held (Lock.isHeldBy_join hfirst j)
        exact hfirst
  | halt => cases hw
  | finishClose hj =>
    rcases (getElem?_set_eq_some hj).mp hi with ⟨-, hnew⟩ | ⟨-, hold⟩
    · cases hnew
    · exact h.unheld hw held hold
  | look | quit | deliver | unwind | hangUp | wait | arrive | finish => exact h.unheld hw held hi

def Progress (tell : Sink σ) (c : Connection) (s : σ) : Prop :=
  ∃ a c', a.isEasing = true ∧ c.step tell a s = some (c', s) ∧
    c'.calls.length = c.calls.length ∧ c'.work < c.work

theorem progress (tell : Sink σ) (s : σ) (h : c.Ebbing) (hi : c.calls[i]? = some call)
    (hu : call.ending? = none) : Progress tell c s := by
  obtain ⟨a, j, ha, hgoes⟩ := (h.sound.unhindered (h.sound.not_receiving h.phase) hi hu).resolve_right
    fun ⟨_, _, _, hj⟩ => h.unwritten hj
  have hease : a.isEasing = true := by cases a <;> first | rfl | simp [Action.promptCall?] at ha
  have hdrain := Action.draining_of_prompt ha
  obtain ⟨⟨c', s'⟩, hs⟩ := hgoes tell s
  obtain ⟨⟨hlen, hlt⟩, -⟩ := (turn_of_step hs).drains hdrain
  obtain rfl := quiet_of_draining hdrain hs fun _ _ => h.phase
  exact ⟨a, c', hease, hs, hlen, hlt⟩

theorem exists_ending (tell : Sink σ) (s : σ) (h : c.Ebbing) (hi : i < c.calls.length) :
    ∃ c', Run tell (c, s) (c', s) ∧ (c'.ending? i).isSome = true := by
  induction hn : c.work using Nat.strongRecOn generalizing c with
  | ind n ih =>
    obtain ⟨call, hcall⟩ : ∃ call, c.calls[i]? = some call := ⟨_, List.getElem?_eq_getElem hi⟩
    cases hu : call.ending? with
    | some result => exact ⟨c, .refl, by simp [Connection.ending?, hcall, hu]⟩
    | none =>
      obtain ⟨a, c', ha, hstep, hlen, hlt⟩ := h.progress tell s hcall hu
      have hnot (payload : List UInt8) : a ≠ .send payload := by
        rintro rfl
        exact absurd ha nofun
      obtain ⟨c'', hrun, hended⟩ :=
        ih c'.work (hn ▸ hlt) (h.turn (turn_of_step hstep) hnot) (hlen ▸ hi) rfl
      exact ⟨c'', hrun.head ⟨a, hstep⟩, hended⟩

end Ebbing

end Fanout.Connection
