import Fanout.Proofs.Server.Stopped

namespace Fanout.Server

variable {behaviour : Behaviour} {s s' s₁ : Server} {t u c call : Nat} {job job' : Job} {a : Action}
  {x x' : Connection}

theorem Stopped.task_lull {P : Server → Job → Prop} (hreach : Reachable behaviour s)
    (h : s.Stopped) (hl : Lull behaviour s s') (hu : s.tasks[u]? = some job) (hp : P s job)
    (hreaper : ∀ {s job}, P s job → job.isReaper = false)
    (hkeep : ∀ {s s' job a}, ¬ a.Starts s → Turn behaviour s a s' → P s job → P s' job)
    (hwork : ∀ {s s₁ job job'}, Reachable behaviour s → s.Stopped → s.isAborted = false →
      (s₁.moveTask u job job').Stopped → Work s u job s₁ job' → P s job →
      P (s₁.moveTask u job job') job') :
    ∃ job', s'.tasks[u]? = some job' ∧ P s' job' := by
  induction hl with
  | refl => exact ⟨job, hu, hp⟩
  | @tail s₂ s₃ hl hn ih =>
    obtain ⟨job₂, hu₂, hp₂⟩ := ih
    obtain ⟨a, ha, hs⟩ := hn
    have h₂ := (h.lull hl).1
    have ht := h₂.sound.turn_of_step hs
    rcases ht.task h₂.sound hu₂ (hreaper hp₂) with ⟨hsame, -⟩ | ⟨s₁, job', hw, rfl⟩
    · exact ⟨job₂, hsame, hkeep ha ht hp₂⟩
    · have hstopped := (h₂.turn ha ht).1
      exact ⟨job', hw.moved_job hu₂,
        hwork (Lull.reachable hl hreach) h₂ (present_of_step hs) hstopped hw hp₂⟩

inductive Overtaken (behaviour : Behaviour) : Job → Prop
  | underWay {job : Job} (hj : job.isAccepting = true) : Overtaken behaviour job
  | failed (e : ServerError) : Overtaken behaviour (.done (.failed e))
  | crashed (hr : Bus.Raises behaviour) : Overtaken behaviour .crashed

theorem Work.overtaken (hreach : Reachable behaviour s) (h : s.Stopped)
    (hw : Work s t job s₁ job') (hj : job.isAccepting = true) : Overtaken behaviour job' := by
  cases hw with
  | acceptClosed | acceptExpired | acceptFailed | acceptReset | refused => exact .failed _
  | acceptPeer | refuse => exact .underWay rfl
  | @enlist l c x held hl => exact absurd (h.isClosed l) (by simp [hl])
  | sweepNext sweeper | sweepEnd sweeper =>
    cases sweeper <;> simp [Sweeper.job, Job.isAccepting] at hj
  | crash _ hc => exact .crashed (raises_of_crashes hreach hc)
  | _ => simp [Job.isAccepting] at hj

theorem Overtaken.not_reaper (h : Overtaken behaviour job) : job.isReaper = false := by
  cases h with
  | underWay hj => exact Job.not_reaper_of_accepting hj
  | failed | crashed => rfl

theorem Stopped.overtaken (hreach : Reachable behaviour s) (h : s.Stopped)
    (hl : Lull behaviour s s') (hu : s.tasks[u]? = some job) (hj : job.isAccepting = true) :
    ∃ job', s'.tasks[u]? = some job' ∧ Overtaken behaviour job' :=
  h.task_lull hreach hl hu (.underWay hj) Overtaken.not_reaper (fun _ _ hp => hp)
    (fun hreach h _ _ hw hp => by
      cases hp with
      | underWay hj => exact hw.overtaken hreach h hj
      | failed => exact absurd rfl hw.undone
      | crashed => exact absurd rfl hw.uncrashed)

end Fanout.Server
