import Fanout.Proofs.Server.Tenure

namespace Fanout.Server

variable {behaviour : Behaviour} {s s' s₁ s₂ : Server} {t c i : Nat} {job job' : Job}
  {x x' : Connection} {calls : List (Nat × Nat)}

theorem tenure_of_subsides (present : s.isAborted = false) (held : s.lock.isHeldBy t = true)
    (hx : s.connections[c]? = some x)
    (run : Relation.ReflTransGen
      (Connection.Subsides (ServerFeed.tell behaviour c) s.feed) x x') :
    Tenure behaviour t s [] (s.setConnection c x') ∧ (s.setConnection c x').isAborted = false := by
  induction run with
  | refl =>
    rw [setConnection_self hx]
    exact ⟨.start held, present⟩
  | @tail y z _ hn ih =>
    obtain ⟨htenure, hpresent⟩ := ih
    obtain ⟨act, ha, hs⟩ := hn
    have hy : (s.setConnection c y).connections[c]? = some y :=
      (getElem?_set_eq_some hx).mpr (.inl ⟨rfl, rfl⟩)
    have hset : (s.setConnection c y).setConnection c z = s.setConnection c z := by
      simp only [setConnection, List.set_set]
    have hstep : (s.setConnection c y).step behaviour (.on c act) =
        some (s.setConnection c z) := by
      have hs' : y.step (ServerFeed.tell behaviour c) act (s.setConnection c y).feed =
          some (z, s.feed) := hs
      simp only [step, hpresent, Connection.Action.not_call_of_draining ha, actOn, hy,
        Option.bind_eq_bind, Option.bind_some, hs', hset]
      rfl
    refine ⟨.step htenure hstep held, ?_⟩
    rw [← hset]
    exact present_set hpresent hy fun hr => ((Connection.turn_of_step hs).drains ha).2 ▸ hr

theorem Sound.awaited_of_holding (h : s.Sound) (ht : s.tasks[t]? = some job)
    (hj : job.standing = .holding) : ∃ c call, s.awaited? job = some (c, call) := by
  match job, h.fits ht with
  | .broadcast _ (some (place, call)), ⟨c, hp⟩ => exact ⟨c, call, by simp [awaited?, hp]⟩
  | .sendTo _ _ (some (c, call)), _ => exact ⟨c, call, rfl⟩
  | .reap _ (some (place, call)), ⟨c, _, _, hp, _⟩ => exact ⟨c, call, by simp [awaited?, hp]⟩
  | .reaper _ _ (some (_, some (place, call))), ⟨c, _, _, hp, _⟩ =>
    exact ⟨c, call, by simp [awaited?, hp]⟩
  | .closeAll _ _ (some (place, call)), ⟨⟨c, _, _, hp, _⟩, _⟩ =>
    exact ⟨c, call, by simp [awaited?, hp]⟩
  | .accept .., _ | .register .., _ | .refuse .., _ | .broadcast _ none, _ | .sendTo _ _ none, _
  | .send .., _ | .close .., _ | .reap _ none, _ | .reaper _ _ none, _
  | .reaper _ _ (some (_, none)), _ | .stopReaper .., _ | .closeAll _ _ none, _ | .count, _
  | .list, _ | .done _, _ | .crashed, _ => simp [Job.standing] at hj

def Unhindered (s : Server) (t : Nat) : Prop :=
  ∀ job c call, s.tasks[t]? = some job → s.awaited? job = some (c, call) →
    ∃ x, s.connections[c]? = some x ∧ x.Fleeting call

theorem step_of_resume (present : s.isAborted = false) (hgo : (s.resume t).isSome = true) :
    ∃ s', s.step behaviour (.resume t) = some s' := by
  obtain ⟨s', hs'⟩ := Option.isSome_iff_exists.mp hgo
  exact ⟨s', by simp [step, present, hs']⟩

theorem comes_to_step (hreach : Reachable behaviour s) (present : s.isAborted = false)
    (held : s.lock.isHeldBy t = true) (unhindered : s.Unhindered t) :
    ∃ s₁ s₂, Tenure behaviour t s [] s₁ ∧ s₁.step behaviour (.resume t) = some s₂ := by
  have hsound := sound_of_reachable hreach
  obtain ⟨job, ht, hj⟩ : ∃ job, s.tasks[t]? = some job ∧ job.standing ≠ .outside :=
    hsound.lock.holder held
  cases hstanding : job.standing with
  | outside => exact absurd hstanding hj
  | waiting =>
    obtain ⟨s₂, hs⟩ := step_of_resume present (hsound.holder_goes_on ht hstanding held)
    exact ⟨s, s₂, .start held, hs⟩
  | holding =>
    obtain ⟨c, call, ha⟩ := hsound.awaited_of_holding ht hstanding
    obtain ⟨x, hx, hfleeting⟩ := unhindered job c call ht ha
    obtain ⟨x', hrun, hended⟩ :=
      hfleeting.ends (hsound.connections hx) (ServerFeed.tell behaviour c) s.feed
    obtain ⟨ending, he⟩ := Option.isSome_iff_exists.mp hended
    obtain ⟨htenure, hpresent⟩ := tenure_of_subsides present held hx hrun
    have hx' : (s.setConnection c x').connections[c]? = some x' :=
      (getElem?_set_eq_some hx).mpr (.inl ⟨rfl, rfl⟩)
    have hsound' := sound_of_reachable (htenure.run.reachable hreach)
    have ha' : (s.setConnection c x').awaited? job = some (c, call) := ha
    obtain ⟨s₂, hs⟩ := step_of_resume hpresent (hsound'.caller_goes_on ht ha' hx' he)
    exact ⟨_, s₂, htenure, hs⟩

theorem Tenure.ends_unless {Q : Server → Prop} (h : Tenure behaviour t s calls s₁) (bound : Nat)
    (hsound : s.Sound) (present : s₁.isAborted = false)
    (goes : ∀ {calls s₁}, Tenure behaviour t s calls s₁ → s₁.isAborted = false →
      ∃ s₂, Tenure behaviour t s₁ [] s₂ ∧ (Q s₂ ∨ ∃ s₃, s₂.step behaviour (.resume t) = some s₃))
    (bounded : ∀ {calls s₁}, Tenure behaviour t s calls s₁ → calls.length ≤ bound) :
    ∃ later s₂, Tenure behaviour t s₁ later s₂ ∧
      (Q s₂ ∨ ∃ s₃, s₂.step behaviour (.resume t) = some s₃ ∧ s₃.lock.isHeldBy t = false) := by
  -- By induction on how many more calls the task can begin, since it begins one at each step.
  induction hn : bound - calls.length using Nat.strongRecOn generalizing calls s₁ with
  | ind n ih =>
    obtain ⟨s₂, htenure, hq | ⟨s₃, hs⟩⟩ := goes h present
    · exact ⟨[], s₂, htenure, .inl hq⟩
    · cases held : s₃.lock.isHeldBy t with
      | false => exact ⟨[], s₂, htenure, .inr ⟨s₃, hs, held⟩⟩
      | true =>
        have hown : begunBy t (.resume t) s₂ s₃ = begun s₂ s₃ := if_pos rfl
        have hlast : Tenure behaviour t s₁ (begun s₂ s₃) s₃ := by
          have hstep := Tenure.step htenure hs held
          rwa [hown] at hstep
        have hall := h.trans hlast
        have hsound₂ := htenure.run.sound (h.run.sound hsound)
        have hsound₃ := hsound₂.turn (hsound₂.turn_of_step hs)
        obtain ⟨job, s₄, job', ht, hw, rfl⟩ := works_of_step hsound₂ hs rfl
        obtain ⟨c, x, -, hp⟩ :=
          hw.begins (hsound₂.inside ht htenure.held) (hsound₃.inside (hw.moved_job ht) held)
        have hle := bounded hall
        rw [hp, List.length_append, List.length_singleton] at hle
        obtain ⟨later, s₅, hrest, hend⟩ :=
          ih _ (by rw [hp, List.length_append, List.length_singleton]; omega) hall
            (hw.present (present_of_step hs)) rfl
        exact ⟨_, s₅, hlast.trans hrest, hend⟩

theorem Tenure.ends (h : Tenure behaviour t s calls s₁) (bound : Nat) (hreach : Reachable behaviour s)
    (present : s₁.isAborted = false)
    (unhindered : ∀ {calls s₁}, Tenure behaviour t s calls s₁ → s₁.Unhindered t)
    (bounded : ∀ {calls s₁}, Tenure behaviour t s calls s₁ → calls.length ≤ bound) :
    ∃ later s₂ s₃, Tenure behaviour t s₁ later s₂ ∧ s₂.step behaviour (.resume t) = some s₃ ∧
      s₃.lock.isHeldBy t = false := by
  obtain ⟨later, s₂, htenure, hnever | ⟨s₃, hs, freed⟩⟩ :=
    h.ends_unless (Q := fun _ => False) bound (sound_of_reachable hreach) present
      (fun h present => by
        obtain ⟨s₂, s₃, htenure, hs⟩ :=
          comes_to_step (h.run.reachable hreach) present h.held (unhindered h)
        exact ⟨s₂, htenure, .inr ⟨s₃, hs⟩⟩)
      bounded
  · exact hnever.elim
  · exact ⟨later, s₂, s₃, htenure, hs, freed⟩

end Fanout.Server
