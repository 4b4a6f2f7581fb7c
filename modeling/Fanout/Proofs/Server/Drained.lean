import Fanout.Proofs.Server.Overtaken
import Fanout.Proofs.Server.Progress

namespace Fanout

theorem Connection.Turn.receiver_of_resting {x x' : Connection} {a : Connection.Action}
    (ht : Connection.Turn x a x') (hi : x.receiver ≠ .idle) (hr : x.receiver ≠ .reading) :
    x'.receiver = x.receiver ∨ x'.receiver = .idle := by
  cases ht with
  | listen => exact .inr rfl
  | look hi' | quit _ hi' => exact absurd hi' hi
  | deliver hr' | unwind _ hr' | hangUp _ _ hr' | wait hr' => exact absurd hr' hr
  | _ => exact .inl rfl

namespace Server

variable {behaviour : Behaviour} {s s' s₁ : Server} {t u c call l : Nat} {job job' : Job}
  {a : Action} {x x' : Connection} {e : ServerError}

theorem Sound.resting (h : s.Sound) (hr : s.registry = []) (hx : s.connections[c]? = some x) :
    x.receiver ≠ .idle ∧ x.receiver ≠ .reading := by
  have absent (ha : x.receiver = .absent) : x.receiver ≠ .idle ∧ x.receiver ≠ .reading := by
    simp [ha]
  rcases h.housed hx with hp | ⟨t, job, ht, ho⟩
  · have hlistening (hactive : x.receiver = .idle ∨ x.receiver = .reading) : False := by
      have := (h.connections hx).listening_of_active hactive
      simp [hp] at this
    exact ⟨fun hi => hlistening (.inl hi), fun hi => hlistening (.inr hi)⟩
  · have hf := h.fits ht
    rcases Job.own?_eq_some.mp ho with ⟨l, rfl⟩ | ⟨call, e, rfl⟩ | rfl
    · obtain ⟨y, hy, hun⟩ := hf
      obtain rfl := Option.some.inj (hx.symm.trans hy)
      exact absent (hun.receiver (h.connections hx)).1
    · obtain ⟨-, -, y, hy, hrefused⟩ := hf
      obtain rfl := Option.some.inj (hx.symm.trans hy)
      exact absent hrefused.receiver
    · obtain ⟨y, hy, hin | hshut⟩ := hf
      · simp [hr] at hin
      · obtain rfl := Option.some.inj (hx.symm.trans hy)
        exact hshut.not_active

theorem Work.leaves_queue (hw : Work s t job s₁ job') (hj : job.standing = .waiting) :
    job'.standing ≠ .waiting := by
  cases hw with
  | sweepNext sweeper | sweepEnd sweeper =>
    cases sweeper <;> simp [Sweeper.job, Sweeper.rest, Job.standing]
  | acceptPeer | tick | reaperStopped | reaperCrashed => simp [Job.standing] at hj
  | _ => simp [Job.standing]

theorem Work.of_register (hw : Work s t (.register l c) s₁ job') (hl : s.isClosed l = true) :
    ∃ call, job' = .refuse c call .listenerClosed := by
  generalize hj : Job.register l c = job at hw
  cases hw with
  | enlist _ hl' =>
    obtain ⟨rfl, rfl⟩ := Job.register.inj hj
    simp [hl] at hl'
  | refuse =>
    obtain ⟨rfl, rfl⟩ := Job.register.inj hj
    exact ⟨_, rfl⟩
  | sweepNext sweeper | sweepEnd sweeper => cases sweeper <;> simp [Sweeper.job] at hj
  | crash ha => simp [← hj, awaited?] at ha
  | _ => simp at hj

theorem Work.of_refuse (hw : Work s t (.refuse c call e) s₁ job') : job'.isOver = true := by
  generalize hj : Job.refuse c call e = job at hw
  cases hw with
  | refused | crash => rfl
  | sweepNext sweeper | sweepEnd sweeper => cases sweeper <;> simp [Sweeper.job] at hj
  | _ => simp at hj

structure Drained (s : Server) : Prop extends s.Stopped where
  registry : s.registry = []
  present : s.isAborted = false

namespace Drained

theorem turn (h : s.Drained) (ha : ¬ a.Starts s) (ht : Turn behaviour s a s') : s'.Drained := by
  obtain ⟨hstopped, hsub⟩ := h.toStopped.turn ha ht
  have hempty : s'.registry = [] := List.sublist_nil.mp (h.registry ▸ hsub)
  have hpresent := isAborted_eq_false.mp h.present
  refine ⟨hstopped, hempty, isAborted_eq_false.mpr fun c x' hx' hr' => ?_⟩
  have fell {x : Connection} {b : Connection.Action} (hx : s.connections[c]? = some x)
      (hturn : Connection.Turn x b x') : False := by
    obtain ⟨hi, hr⟩ := h.sound.resting h.registry hx
    rcases hturn.receiver_of_resting hi hr with hsame | hidle
    · exact hpresent c x hx (hsame.symm.trans hr')
    · simp [hidle] at hr'
  rcases ht.changes.origin hx' with hun | ⟨x, hx, hsteps⟩
  · simp [(hun.receiver (hstopped.sound.connections hx')).1] at hr'
  · cases hsteps with
    | same heq => exact hpresent c x hx (heq ▸ hr')
    | call hturn => exact fell hx hturn
    | act _ hs => exact fell hx (Connection.turn_of_step hs)

theorem lull (h : s.Drained) (hl : Lull behaviour s s') : s'.Drained := by
  induction hl with
  | refl => exact h
  | tail _ hn ih =>
    obtain ⟨a, ha, hs⟩ := hn
    exact ih.turn ha (ih.sound.turn_of_step hs)

theorem waits (h : s.Drained) (hu : s.tasks[u]? = some job) : job.standing ≠ .holding := by
  intro hj
  have hf := h.sound.fits hu
  have hempty := h.registry
  have closes {place call : Nat} (hc : s.Closes place call) : False := by
    obtain ⟨c, -, -, hp, -⟩ := hc
    simp [hempty] at hp
  match job, hf with
  | .broadcast _ (some _), ⟨c, hc⟩ => simp [hempty] at hc
  | .sendTo _ _ (some _), hc =>
    simp only [Fits, hempty] at hc
    exact absurd hc List.not_mem_nil
  | .reap _ (some _), hc | .reaper _ _ (some (_, some _)), hc => exact closes hc
  | .closeAll _ _ (some _), hc => exact closes hc.1
  | .register .., _ | .accept .., _ | .refuse .., _ | .broadcast _ none, _ | .sendTo _ _ none, _
  | .send .., _ | .close .., _ | .reap _ none, _ | .reaper _ _ none, _
  | .reaper _ _ (some (_, none)), _ | .stopReaper .., _ | .closeAll _ _ none, _ | .count, _
  | .list, _ | .done _, _ | .crashed, _ => simp [Job.standing] at hj

theorem head_goes_on (behaviour : Behaviour) (h : s.Drained) (held : s.lock.isHeldBy u = true) :
    ∃ s₁ job job', s.tasks[u]? = some job ∧ Work s u job s₁ job' ∧
      Lulls behaviour s (s₁.moveTask u job job') ∧
      (s₁.moveTask u job job').lock.queue = s.lock.queue.tail := by
  have hstanding := h.sound.lock.standing_of_isHeldBy held
  cases hu : s.tasks[u]? with
  | none => simp [hu] at hstanding
  | some job =>
    simp only [List.getElem?_map, hu, Option.map_some, Option.some.injEq] at hstanding
    have hj : job.standing = .waiting := hstanding.resolve_right (h.waits hu)
    obtain ⟨s', hs'⟩ := Option.isSome_iff_exists.mp (h.sound.holder_goes_on hu hj held)
    have hstep : s.step behaviour (.resume u) = some s' := by simp [step, h.present, hs']
    have hafter := h.turn id (h.sound.turn_of_step hstep)
    obtain ⟨job₁, s₁, job', hu₁, hw, rfl⟩ := works_resume h.sound hs'
    obtain rfl := Option.some.inj (hu.symm.trans hu₁)
    refine ⟨s₁, job, job', rfl, hw, ⟨.resume u, id, hstep⟩, ?_⟩
    have hout : job'.standing = .outside := by
      cases hj' : job'.standing with
      | outside => rfl
      | waiting => exact absurd hj' (hw.leaves_queue hj)
      | holding => exact absurd hj' (hafter.waits (hw.moved_job hu))
    simp only [moveTask, hj, hout, hw.frame.1]
    exact Lock.queue_leave_holder held

theorem comes_to_hold (behaviour : Behaviour) (h : s.Drained) (hu : s.tasks[u]? = some job)
    (hj : job.standing = .waiting) :
    ∃ s', Lull behaviour s s' ∧ s'.Drained ∧ s'.tasks[u]? = some job ∧
      s'.lock.isHeldBy u = true := by
  have hm : u ∈ s.lock.queue := (h.sound.lock.mem_iff u).mpr (.inl (by simp [hu, hj]))
  obtain ⟨before, after, hq⟩ := List.append_of_mem hm
  clear hm
  -- By induction on those who stand before the task in the queue.
  induction before generalizing s with
  | nil => exact ⟨s, .refl, h, hu, (Lock.isHeldBy_iff _ _).mpr ⟨after, hq⟩⟩
  | cons v before ih =>
    have held : s.lock.isHeldBy v = true := (Lock.isHeldBy_iff _ _).mpr ⟨_, hq⟩
    have huv : u ≠ v := by
      rintro rfl
      have hnodup := h.sound.lock.nodup
      simp [hq] at hnodup
    obtain ⟨s₁, other, other', hv, hw, hlulls, htail⟩ := h.head_goes_on behaviour held
    have hl : Lull behaviour s _ := .single hlulls
    have hu' : (s₁.moveTask v other other').tasks[u]? = some job :=
      (hw.tasks_iff hv).mpr (.inr ⟨huv, hu⟩)
    obtain ⟨s', hl', hheld⟩ := ih (h.lull hl) hu' (by rw [htail, hq]; rfl)
    exact ⟨s', hl.trans hl', hheld⟩

theorem register_goes_on (behaviour : Behaviour) (h : s.Drained)
    (hu : s.tasks[u]? = some (.register l c)) :
    ∃ s' call, Lull behaviour s s' ∧ s'.Drained ∧
      s'.tasks[u]? = some (.refuse c call .listenerClosed) := by
  obtain ⟨s₁, hl, hdrained, hu₁, held⟩ := h.comes_to_hold behaviour hu rfl
  obtain ⟨s₂, job, job', hu₂, hw, hlulls, -⟩ := hdrained.head_goes_on behaviour held
  obtain rfl := Option.some.inj (hu₁.symm.trans hu₂)
  obtain ⟨call, rfl⟩ := hw.of_register (hdrained.isClosed l)
  have hl' : Lull behaviour s₁ _ := .single hlulls
  exact ⟨_, call, hl.trans hl', hdrained.lull hl', hw.moved_job hu₁⟩

theorem resume_refused (behaviour : Behaviour) (h : s.Drained)
    (hu : s.tasks[u]? = some (.refuse c 0 e)) (hx : s.connections[c]? = some x)
    (he : x.ending? 0 ≠ none) :
    ∃ s' job', Lull behaviour s s' ∧ s'.tasks[u]? = some job' ∧ job'.isOver = true := by
  obtain ⟨ending, he⟩ := Option.ne_none_iff_exists'.mp he
  have hsome : (s.resume u).isSome = true := by
    cases ending <;> simp [resume, hu, awaited?, hx, he, afterCall]
  obtain ⟨s', hs'⟩ := Option.isSome_iff_exists.mp hsome
  have hstep : s.step behaviour (.resume u) = some s' := by simp [step, h.present, hs']
  obtain ⟨job, s₁, job', hu₁, hw, rfl⟩ := works_resume h.sound hs'
  obtain rfl := Option.some.inj (hu.symm.trans hu₁)
  exact ⟨_, job', .single ⟨.resume u, id, hstep⟩, hw.moved_job hu, hw.of_refuse⟩

theorem refuse_ends (behaviour : Behaviour) (h : s.Drained)
    (hu : s.tasks[u]? = some (.refuse c 0 e)) (hx : s.connections[c]? = some x) :
    ∃ s' job', Lull behaviour s s' ∧ s'.tasks[u]? = some job' ∧ job'.isOver = true := by
  induction hn : x.work using Nat.strongRecOn generalizing s x with
  | ind n ih =>
    cases hend : x.ending? 0 with
    | some ending => exact h.resume_refused behaviour hu hx (by simp [hend])
    | none =>
      obtain ⟨-, -, y, hy, hrefused⟩ := h.sound.fits hu
      obtain rfl := Option.some.inj (hx.symm.trans hy)
      obtain ⟨act, x', feed, hact, hs, hlt⟩ :=
        hrefused.progress (ServerFeed.tell behaviour c) s.feed (h.sound.connections hx) hend
      have hstep : s.step behaviour (.on c act) = some { s.setConnection c x' with feed } := by
        simp [step, h.present, hact, actOn, hx, hs]
      have hl : Lull behaviour s _ := .single ⟨.on c act, id, hstep⟩
      obtain ⟨s', job', hl', hover⟩ := ih x'.work (hn ▸ hlt) (h.lull hl) hu
        ((getElem?_set_eq_some hx).mpr (.inl ⟨rfl, rfl⟩)) rfl
      exact ⟨s', job', hl.trans hl', hover⟩

theorem accept_ends (behaviour : Behaviour) (h : s.Drained) (hu : s.tasks[u]? = some job)
    (hj : job.isAccepting = true) :
    ∃ s' job', Lull behaviour s s' ∧ s'.tasks[u]? = some job' ∧ job'.isOver = true := by
  match job, hj with
  | .accept secs deadline l, _ =>
    have hstep : s.step behaviour (.acceptClosed u) =
        some (s.setTask u (.done (.failed .listenerClosed))) := by
      simp [step, h.present, acceptClosed, hu, h.isClosed l]
    exact ⟨_, _, .single ⟨.acceptClosed u, id, hstep⟩,
      (getElem?_set_eq_some hu).mpr (.inl ⟨rfl, rfl⟩), rfl⟩
  | .register l c, _ =>
    obtain ⟨s₁, call, hl, hdrained, hrefuse⟩ := h.register_goes_on behaviour hu
    obtain ⟨rfl, -, x, hx, -⟩ := hdrained.sound.fits hrefuse
    obtain ⟨s', job', hl', hover⟩ := hdrained.refuse_ends behaviour hrefuse hx
    exact ⟨s', job', hl.trans hl', hover⟩
  | .refuse c call e, _ =>
    obtain ⟨rfl, -, x, hx, -⟩ := h.sound.fits hu
    exact h.refuse_ends behaviour hu hx

end Drained

end Server

end Fanout
