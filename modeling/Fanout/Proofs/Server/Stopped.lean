import Fanout.Proofs.Observer.Delivery
import Fanout.Proofs.Server.Onward

namespace Fanout

namespace Job

def isAccepting : Job → Bool
  | .accept _ _ _ => true
  | .register _ _ => true
  | .refuse _ _ _ => true
  | _ => false

def isShutdown : Job → Bool
  | .stopReaper _ _ => true
  | .closeAll _ _ _ => true
  | _ => false

theorem not_reaper_of_accepting {job : Job} (h : job.isAccepting = true) :
    job.isReaper = false := by
  cases job with
  | reaper => simp [isAccepting] at h
  | _ => rfl

theorem not_reaper_of_shutdown {job : Job} (h : job.isShutdown = true) : job.isReaper = false := by
  cases job with
  | reaper => simp [isShutdown] at h
  | _ => rfl

theorem not_reaper_of_over {job : Job} (h : job.isOver = true) : job.isReaper = false := by
  cases job with
  | reaper => simp [isOver] at h
  | _ => rfl

end Job

namespace Server

variable {behaviour : Behaviour} {s s' s₁ : Server} {t u c call : Nat} {job job' : Job} {a : Action}
  {x x' : Connection}

theorem Lull.returns {failure : Failure} (h : Lull behaviour s s') (hs : s.Sound)
    (hr : s.Returns c call failure) : s'.Returns c call failure := by
  suffices s'.Sound ∧ s'.Returns c call failure from this.2
  induction h with
  | refl => exact ⟨hs, hr⟩
  | tail _ hn ih =>
    obtain ⟨a, -, hstep⟩ := hn
    have ht := ih.1.turn_of_step hstep
    exact ⟨ih.1.turn ht, ih.2.turn ht⟩

theorem Turn.keeps_over (h : s.Sound) (ht : Turn behaviour s a s') (hu : s.tasks[u]? = some job)
    (hj : job.isOver = true) : s'.tasks[u]? = some job := by
  rcases ht.task h hu (Job.not_reaper_of_over hj) with ⟨hsame, -⟩ | ⟨_, _, hw, -⟩
  · exact hsame
  · exact absurd (hw.not_over.symm.trans hj) nofun

theorem Run.keeps_over (h : Run behaviour s s') (hs : s.Sound) (hu : s.tasks[u]? = some job)
    (hj : job.isOver = true) : s'.tasks[u]? = some job := by
  induction h with
  | refl => exact hu
  | tail hrun hn ih =>
    obtain ⟨a, ha⟩ := hn
    have hsound := Run.sound hrun hs
    exact (hsound.turn_of_step ha).keeps_over hsound ih hj

theorem crashes_iff : s.Crashes c call ↔
    ∃ x, s.connections[c]? = some x ∧ x.calls[call]? = some (.close .crashed) := by
  simp only [Crashes, Connection.ending?_eq_crashed]

theorem Steps.crashed (h : Steps behaviour s c x x')
    (hi : x'.calls[call]? = some (.close .crashed)) :
    x.calls[call]? = some (.close .crashed) ∨ Bus.Raises behaviour := by
  cases h with
  | same h => exact .inl (h ▸ hi)
  | call ht ha => exact .inl (ht.crashed_of_call ha hi)
  | act ha hs =>
    refine (Connection.crashed_origin hs hi).imp_right ?_
    rintro ⟨y, signal, f, hraised⟩
    exact Bus.deliver_raised hraised

theorem raises_of_crashes (h : Reachable behaviour s) (hc : s.Crashes c call) :
    Bus.Raises behaviour := by
  induction h with
  | new config => simp [Crashes] at hc
  | step a hreach hs ih =>
    obtain ⟨x', hx', hi⟩ := crashes_iff.mp hc
    have ht := (sound_of_reachable hreach).turn_of_step hs
    rcases ht.changes.origin hx' with hun | ⟨x, hx, hstep⟩
    · simp [hun.calls] at hi
    · rcases hstep.crashed hi with hold | hraises
      · exact ih (crashes_iff.mpr ⟨x, hx, hold⟩)
      · exact hraises

inductive Dismisses (s : Server) (t : Nat) (listener : Option Nat) (first : Option ServerError)
    (closing : Option (Nat × Nat)) : Server → Job → Prop
  | close {place c : Nat} {failure : Failure} {x : Connection}
      (ha : s.Arrives t closing place failure) (hp : s.registry[place]? = some c)
      (hx : s.connections[c]? = some x) :
      Dismisses s t listener first closing (s.setConnection c x.beginClose)
        (.closeAll listener (s.closeFailure (place - 1) first failure)
          (some (place, x.calls.length)))
  | empty {place : Nat} {failure : Failure} (ha : s.Arrives t closing place failure)
      (hp : s.registry[place]? = none) :
      Dismisses s t listener first closing ({ s with registry := [] }.releaseListener listener)
        (.done (shutdownReply (s.closeFailure (place - 1) first failure)))
  | crash {c call : Nat} (ha : s.awaited? (.closeAll listener first closing) = some (c, call))
      (hc : s.Crashes c call) : Dismisses s t listener first closing s .crashed

theorem Work.dismisses {listener : Option Nat} {first : Option ServerError}
    {closing : Option (Nat × Nat)} (hw : Work s t (.closeAll listener first closing) s₁ job') :
    Dismisses s t listener first closing s₁ job' := by
  generalize hj : Job.closeAll listener first closing = job at hw
  cases hw with
  | closeNext ha hp hx =>
    obtain ⟨rfl, rfl, rfl⟩ := Job.closeAll.inj hj
    exact .close ha hp hx
  | closeEnd ha hp =>
    obtain ⟨rfl, rfl, rfl⟩ := Job.closeAll.inj hj
    exact .empty ha hp
  | crash ha hc =>
    subst hj
    exact .crash ha hc
  | sweepNext sweeper | sweepEnd sweeper => cases sweeper <;> cases hj
  | _ => cases hj

structure Stopped (s : Server) : Prop where
  sound : s.Sound
  listening : s.listening = none
  reaper : s.reaper = none

theorem Work.registry_sublist (hw : Work s t job s₁ job') (hclosed : ∀ l, s.isClosed l = true) :
    s₁.registry.Sublist s.registry := by
  cases hw with
  | @enlist l c x held hl => exact absurd (hclosed l) (by simp [hl])
  | sweepNext _ _ hs | sweepEnd _ _ hs =>
    cases hs with
    | first => exact .refl _
    | evict => exact List.eraseIdx_sublist _ _
  | @closeEnd listener => cases listener <;> exact List.nil_sublist _
  | _ => exact .refl _

namespace Stopped

theorem isClosed (h : s.Stopped) (l : Nat) : s.isClosed l = true :=
  h.sound.isClosed_of_listening_none h.listening l

theorem turn (h : s.Stopped) (ha : ¬ a.Starts s) (ht : Turn behaviour s a s') :
    s'.Stopped ∧ s'.registry.Sublist s.registry := by
  have hsound := h.sound.turn ht
  cases ht with
  | start _ ha' | startReaping _ ha' | replaceReaper _ ha' => exact absurd ha' ha
  | rest | subscribe | connect | pass | on =>
    exact ⟨⟨hsound, h.listening, h.reaper⟩, .refl _⟩
  | begin _ hb =>
    refine ⟨⟨hsound, ?_, ?_⟩, hb.frame.1 ▸ .refl _⟩
    · cases hb with
      | stopReaper hr => simp [h.reaper] at hr
      | closeAll => exact (unlisten_frame s).2.2.2.2.2.1
      | _ => exact h.listening
    · cases hb with
      | stopReaper hr => simp [h.reaper] at hr
      | closeAll hr => exact (unlisten_frame s).2.2.2.2.2.2.trans hr
      | _ => exact h.reaper
  | drop =>
    obtain ⟨-, hreg, -, -, hlistening, hreaper⟩ := drop_frame s
    exact ⟨⟨hsound, hlistening, hreaper⟩, hreg ▸ .refl _⟩
  | work _ hw =>
    obtain ⟨job, s₁, job', ht, hw, rfl⟩ := hw
    obtain ⟨-, -, hlistening, hreaper, -⟩ := hw.frame
    exact ⟨⟨hsound, hlistening.trans h.listening, hreaper.trans h.reaper⟩,
      hw.registry_sublist h.isClosed⟩

theorem lull (h : s.Stopped) (hl : Lull behaviour s s') :
    s'.Stopped ∧ s'.registry.Sublist s.registry := by
  induction hl with
  | refl => exact ⟨h, .refl _⟩
  | tail _ hn ih =>
    obtain ⟨a, ha, hs⟩ := hn
    obtain ⟨hstopped, hsub⟩ := ih.1.turn ha (ih.1.sound.turn_of_step hs)
    exact ⟨hstopped, hsub.trans ih.2⟩

end Stopped

end Server

end Fanout
