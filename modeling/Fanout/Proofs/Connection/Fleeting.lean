import Fanout.Proofs.Connection.Ebbing

namespace Fanout.Connection

variable {σ : Type} {c c' : Connection} {a : Action} {i : Nat}

/-- A call that only other calls can hold up: a send, or a close of a connection that is down. -/
inductive Fleeting (c : Connection) (i : Nat) : Prop
  | send {payload : List UInt8} {point : SendPoint} (hi : c.calls[i]? = some (.send payload point))
  | close {p : ClosePoint} (hi : c.calls[i]? = some (.close p)) (hp : c.phase = .disconnected)

def Subsides (tell : Sink σ) (s : σ) (c c' : Connection) : Prop :=
  ∃ a, a.isDraining = true ∧ c.step tell a s = some (c', s)

theorem subsides_of_goes (hgoes : c.Goes a) (ha : a.isDraining = true)
    (down : ∀ i, a = .finishClose i → c.phase = .disconnected) (tell : Sink σ) (s : σ) :
    ∃ c', Subsides tell s c c' := by
  obtain ⟨⟨c', s'⟩, hs⟩ := hgoes tell s
  obtain rfl := quiet_of_draining ha hs down
  exact ⟨c', a, ha, hs⟩

theorem Sound.writer_subsides (h : c.Sound) (held : c.writing.isHeldBy i = true) (tell : Sink σ)
    (s : σ) : ∃ c', Subsides tell s c c' := by
  obtain ⟨call, hcall, hstanding⟩ := h.writing.holder held
  match call, hcall with
  | .send _ .queued, hi => exact subsides_of_goes (goes_obtainWriter hi held) rfl nofun tell s
  | .send _ (.writing _), hi => exact subsides_of_goes (goes_writeExpired hi) rfl nofun tell s
  | .close .draining, hi => exact subsides_of_goes (goes_halt hi held .halted) rfl nofun tell s
  | .listen _, _ | .send _ (.done _ _), _ | .close .queued, _ | .close (.joining _ _), _
  | .close (.done _), _ | .close .crashed, _ => simp [Call.writingStanding] at hstanding

namespace Fleeting

theorem turn (hf : c.Fleeting i) (ht : Turn c a c') : c'.Fleeting i := by
  cases hf with
  | send hi =>
    rcases ht.call_onward hi with hsame | ⟨call, hnew, hm⟩
    · exact .send hsame
    · cases hm <;> exact .send hnew
  | close hi hp =>
    rcases ht.call_onward hi with hsame | ⟨call, hnew, hm⟩
    · exact .close hsame (ht.disconnected_mono hp)
    · cases hm <;> exact .close hnew (ht.disconnected_mono hp)

theorem subsides (hf : c.Fleeting i) (h : c.Sound) (hu : c.ending? i = none) (tell : Sink σ)
    (s : σ) : ∃ c', Subsides tell s c c' := by
  cases hf with
  | @send payload point hi =>
    have hstanding : (Call.send payload point).writingStanding ≠ .outside := by
      cases point <;> simp_all [ending?, Call.ending?, Call.writingStanding]
    obtain ⟨j, held⟩ := h.writing.exists_holder hi hstanding
    exact h.writer_subsides held tell s
  | @close p hi hp =>
    have hunended : (Call.close p).ending? = none := by simpa [ending?, hi] using hu
    obtain ⟨a, ha, hgoes⟩ := h.drains (h.not_receiving hp) hi hunended
    exact subsides_of_goes hgoes ha (fun _ _ => hp) tell s

theorem ends (hf : c.Fleeting i) (h : c.Sound) (tell : Sink σ) (s : σ) :
    ∃ c', Relation.ReflTransGen (Subsides tell s) c c' ∧ (c'.ending? i).isSome = true := by
  -- By induction on what is left to do.
  induction hn : c.work using Nat.strongRecOn generalizing c with
  | ind n ih =>
    cases hu : c.ending? i with
    | some ending => exact ⟨c, .refl, by simp [hu]⟩
    | none =>
      obtain ⟨c₁, a, ha, hs⟩ := hf.subsides h hu tell s
      have ht := turn_of_step hs
      obtain ⟨c', hrun, hended⟩ := ih c₁.work (hn ▸ (ht.drains ha).1.2) (hf.turn ht) (h.turn ht) rfl
      exact ⟨c', hrun.head ⟨a, ha, hs⟩, hended⟩

end Fleeting

end Fanout.Connection
