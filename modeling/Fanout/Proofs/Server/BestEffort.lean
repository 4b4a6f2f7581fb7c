import Fanout.Proofs.Server.ClosingPass
import Fanout.Proofs.Server.Shutdown

namespace Fanout.Server

/-- One step that does not start the server again, or a panic of the reaper that the task waits for.
-/
inductive Toils (behaviour : Behaviour) (t : Nat) (s s' : Server) : Prop
  | step (h : Lulls behaviour s s')
  | panic {listener : Option Nat} {r : Nat} (ht : s.tasks[t]? = some (.stopReaper listener r))
      (hp : s.Panics r s')

def Course (behaviour : Behaviour) (t : Nat) : Server → Server → Prop :=
  Relation.ReflTransGen (Toils behaviour t)

inductive Joins (s : Server) : Option Nat → Option ServerError → Prop
  | absent : Joins s none none
  | ended {r : Nat} {reply : Reply} (hr : s.tasks[r]? = some (.done reply)) :
      Joins s (some r) none
  -- `crashed` stands for what the runtime's `JoinError` displays of a task that has panicked.
  | panicked {r : Nat} (hr : s.tasks[r]? = some .crashed) :
      Joins s (some r) (some (.shutdown "reaper: crashed"))

structure Takes (behaviour : Behaviour) (t : Nat) (reaper : Option Nat) (s₁ s : Server)
    (joined : Option ServerError) : Prop where
  course : Course behaviour t s₁ s
  waits : ∃ listener, s.tasks[t]? = some (.closeAll listener joined none)
  held : s.lock.isHeldBy t = true
  joins : s.Joins reaper joined

structure Shuts (behaviour : Behaviour) (t : Nat) (reaper : Option Nat) (s₁ s : Server)
    (joined : Option ServerError) (calls : List (Nat × Nat)) (s' s'' : Server) : Prop where
  takes : Takes behaviour t reaper s₁ s joined
  tenure : Tenure behaviour t s calls s'
  course : Course behaviour t s₁ s'
  step : ∃ a, a.task? = some t ∧ s'.step behaviour a = some s''
  freed : s''.lock.isHeldBy t = false

inductive Stage (behaviour : Behaviour) (t : Nat) (reaper : Option Nat) (s₁ : Server) :
    Server → Prop
  | joining {s : Server} {listener : Option Nat} {r : Nat}
      (ht : s.tasks[t]? = some (.stopReaper listener r)) (hr : reaper = some r) :
      Stage behaviour t reaper s₁ s
  | queueing {s : Server} {listener : Option Nat} {joined : Option ServerError}
      (ht : s.tasks[t]? = some (.closeAll listener joined none)) (hj : s.Joins reaper joined) :
      Stage behaviour t reaper s₁ s
  | closing {s s' : Server} {joined : Option ServerError} {calls : List (Nat × Nat)}
      (takes : Takes behaviour t reaper s₁ s joined) (tenure : Tenure behaviour t s calls s') :
      Stage behaviour t reaper s₁ s'
  | returned {s s' s'' s₂ : Server} {joined : Option ServerError} {calls : List (Nat × Nat)}
      (shuts : Shuts behaviour t reaper s₁ s joined calls s' s'') (rest : Lull behaviour s'' s₂) :
      Stage behaviour t reaper s₁ s₂

variable {behaviour : Behaviour} {s s' s'' s₁ s₂ : Server} {t c u : Nat} {job job' : Job}
  {a : Action} {listener reaper : Option Nat} {joined first : Option ServerError}
  {calls : List (Nat × Nat)} {reply : Reply}

namespace Toils

theorem orderly (h : Toils behaviour t s s') (hs : s.Orderly) : s'.Orderly := by
  cases h with
  | step h =>
    obtain ⟨a, -, hstep⟩ := h
    exact hs.step hstep
  | panic _ hp => exact hs.panics hp

theorem stopped (h : Toils behaviour t s s') (hs : s.Stopped) :
    s'.Stopped ∧ s'.registry.Sublist s.registry := by
  cases h with
  | step h => exact hs.lull (.single h)
  | panic _ hp => exact ⟨hp.stopped hs, hp.frame.1 ▸ .refl _⟩

theorem given_mono (h : Toils behaviour t s s') (hs : s.Sound) (hg : s.isGiven c = true) :
    s'.isGiven c = true := by
  cases h with
  | step h =>
    obtain ⟨a, -, hstep⟩ := h
    exact (hs.turn_of_step hstep).given_mono hs hg
  | panic _ hp => exact hp.isGiven hg

theorem lulls (h : Toils behaviour t s s') (hu : s.tasks[t]? = some job)
    (hj : ∀ listener r, job ≠ .stopReaper listener r) : Lulls behaviour s s' := by
  cases h with
  | step h => exact h
  | panic ht => exact absurd (Option.some.inj (hu.symm.trans ht)) (hj _ _)

end Toils

namespace Course

theorem orderly (h : Course behaviour t s s') (hs : s.Orderly) : s'.Orderly := by
  induction h with
  | refl => exact hs
  | tail _ hn ih => exact hn.orderly ih

theorem stopped (h : Course behaviour t s s') (hs : s.Stopped) :
    s'.Stopped ∧ s'.registry.Sublist s.registry := by
  induction h with
  | refl => exact ⟨hs, .refl _⟩
  | tail _ hn ih =>
    obtain ⟨hstopped, hsub⟩ := hn.stopped ih.1
    exact ⟨hstopped, hsub.trans ih.2⟩

theorem of_lull (h : Lull behaviour s s') : Course behaviour t s s' :=
  h.lift id fun _ _ hn => .step hn

theorem given_mono (h : Course behaviour t s s') (hs : s.Orderly) (hg : s.isGiven c = true) :
    s'.isGiven c = true := by
  induction h with
  | refl => exact hg
  | tail hc hn ih => exact hn.given_mono (Course.orderly hc hs).sound ih

end Course

theorem Joins.turn (h : s.Joins reaper joined) (hs : s.Sound) (ht : Turn behaviour s a s') :
    s'.Joins reaper joined := by
  cases h with
  | absent => exact .absent
  | ended hr => exact .ended (ht.keeps_over hs hr rfl)
  | panicked hr => exact .panicked (ht.keeps_over hs hr rfl)

theorem Work.of_stopReaper {r : Nat} (hw : Work s t (.stopReaper listener r) s₁ job') :
    s₁ = s ∧ ∃ joined, job' = .closeAll listener joined none ∧ s.Joins (some r) joined := by
  generalize hj : Job.stopReaper listener r = job at hw
  cases hw with
  | reaperStopped hr =>
    obtain ⟨rfl, rfl⟩ := Job.stopReaper.inj hj
    exact ⟨rfl, _, rfl, .ended hr⟩
  | reaperCrashed hr =>
    obtain ⟨rfl, rfl⟩ := Job.stopReaper.inj hj
    exact ⟨rfl, _, rfl, .panicked hr⟩
  | crash ha =>
    subst hj
    cases ha
  | sweepNext sweeper | sweepEnd sweeper => cases sweeper <;> cases hj
  | _ => cases hj

theorem not_starts_of_task (ha : a.task? = some t) : ¬ a.Starts s := by
  cases a with
  | start => cases ha
  | _ => exact id

theorem Takes.busy (h : Takes behaviour t reaper s₁ s joined) (hs : s.Orderly)
    (tenure : Tenure behaviour t s calls s') :
    ∃ listener first closing, s'.tasks[t]? = some (.closeAll listener first closing) := by
  obtain ⟨listener, waits⟩ := h.waits
  obtain ⟨-, job, ht, hclosing⟩ := closing_of_tenure hs waits tenure
  obtain ⟨first, closing, rfl⟩ := hclosing.job_eq
  exact ⟨listener, first, closing, ht⟩

theorem Takes.stage (h : Takes behaviour t reaper s₁ s joined) (hs : s.Orderly)
    (tenure : Tenure behaviour t s calls s') (course : Course behaviour t s₁ s')
    (hn : Lulls behaviour s' s'') : Stage behaviour t reaper s₁ s'' := by
  obtain ⟨a, -, hstep⟩ := hn
  cases held : s''.lock.isHeldBy t with
  | true => exact .closing h (.step tenure hstep held)
  | false =>
    obtain ⟨listener, waits⟩ := h.waits
    obtain ⟨ha, -⟩ := closes_all hs waits tenure hstep held
    exact .returned ⟨h, tenure, course, ⟨a, ha, hstep⟩, held⟩ .refl

theorem Shuts.returned (h : Shuts behaviour t reaper s₁ s joined calls s' s'') (hs : s.Orderly) :
    s''.registry = [] ∧ s''.isAborted = false ∧ calls.map Prod.fst = s.registry ∧
      (∀ p ∈ calls, s'.Closed p) ∧
      ∃ first, s'.FirstFailure joined calls first ∧
        s''.tasks[t]? = some (.done (shutdownReply first)) := by
  obtain ⟨listener, waits⟩ := h.takes.waits
  obtain ⟨a, ha, hstep⟩ := h.step
  obtain ⟨-, hreg, hresult⟩ := closes_all hs waits h.tenure hstep h.freed
  obtain ⟨horderly, -⟩ := closing_of_tenure hs waits h.tenure
  obtain ⟨_, _, _, -, hw, rfl⟩ := works_of_step horderly.sound hstep ha
  exact ⟨hreg, hw.present (present_of_step hstep), hresult⟩

theorem Shuts.keeps_reply (h : Shuts behaviour t reaper s₁ s joined calls s' s'') (hs₁ : s₁.Orderly)
    (rest : Lull behaviour s'' s₂) :
    ∃ first, s'.FirstFailure joined calls first ∧
      s₂.tasks[t]? = some (.done (shutdownReply first)) := by
  obtain ⟨-, -, -, -, first, hfirst, ht⟩ := h.returned (h.takes.course.orderly hs₁)
  obtain ⟨a, -, hs⟩ := h.step
  have hsound := ((h.course.orderly hs₁).step hs).sound
  exact ⟨first, hfirst, rest.run.keeps_over hsound ht rfl⟩

theorem stage_begun (hs : s.step behaviour (.begin .shutdown) = some s₁) :
    Stage behaviour s.tasks.length s.reaper s₁ s₁ := by
  obtain ⟨s', job, hb, rfl⟩ := begins_of_shutdown hs
  obtain ⟨-, -, hlen⟩ := hb.frame
  have ht : (s'.enterTask job).tasks[s.tasks.length]? = some job :=
    getElem?_concat_eq_some.mpr (.inl ⟨hlen.symm, rfl⟩)
  cases hb with
  | stopReaper hr => exact .joining ht hr
  | closeAll hr => exact .queueing ht (hr ▸ .absent)

theorem Work.holds_registry (hw : Work s t (.closeAll listener joined none) s₁ job') :
    s.lock.isHeldBy t = true := by
  cases hw.dismisses with
  | close ha | empty ha =>
    cases ha with
    | first held => exact held
  | crash ha => cases ha

theorem Stage.toils (h : Stage behaviour t reaper s₁ s) (hs₁ : s₁.Orderly)
    (course : Course behaviour t s₁ s) (hn : Toils behaviour t s s') :
    Stage behaviour t reaper s₁ s' := by
  have hsound := (course.orderly hs₁).sound
  cases h with
  | joining ht hr =>
    cases hn with
    | step hlulls =>
      obtain ⟨a, -, hs⟩ := hlulls
      have hturn := hsound.turn_of_step hs
      rcases hturn.task hsound ht rfl with ⟨hsame, -⟩ | ⟨s₂, job', hw, rfl⟩
      · exact .joining hsame hr
      · obtain ⟨-, joined, rfl, hjoins⟩ := hw.of_stopReaper
        exact .queueing (hw.moved_job ht) (hr ▸ hjoins.turn hsound hturn)
    | panic _ hp => exact .joining (hp.kept rfl ht) hr
  | queueing ht hjoins =>
    have hlulls := hn.lulls ht nofun
    obtain ⟨a, -, hs⟩ := id hlulls
    have hturn := hsound.turn_of_step hs
    rcases hturn.task hsound ht rfl with ⟨hsame, -⟩ | ⟨s₂, job', hw, -⟩
    · exact .queueing hsame (hjoins.turn hsound hturn)
    · have held := hw.holds_registry
      exact Takes.stage ⟨course, ⟨_, ht⟩, held, hjoins⟩ (course.orderly hs₁) (.start held) course
        hlulls
  | closing takes tenure =>
    have horderly := takes.course.orderly hs₁
    obtain ⟨_, _, _, ht⟩ := takes.busy horderly tenure
    exact takes.stage horderly tenure course (hn.lulls ht nofun)
  | returned shuts rest =>
    obtain ⟨_, -, hdone⟩ := shuts.keeps_reply hs₁ rest
    exact .returned shuts (rest.tail (hn.lulls hdone nofun))

theorem stage_of_course (hs₁ : s₁.Orderly) (hstage : Stage behaviour t reaper s₁ s₁)
    (course : Course behaviour t s₁ s) : Stage behaviour t reaper s₁ s := by
  induction course with
  | refl => exact hstage
  | tail hc hn ih => exact ih.toils hs₁ hc hn

theorem Stage.shuts (h : Stage behaviour t reaper s₁ s₂) (hs₁ : s₁.Orderly)
    (hdone : s₂.tasks[t]? = some (.done reply)) :
    ∃ s joined calls s' s'', Shuts behaviour t reaper s₁ s joined calls s' s'' ∧
      Lull behaviour s'' s₂ := by
  cases h with
  | joining ht | queueing ht => cases ht.symm.trans hdone
  | closing takes tenure =>
    obtain ⟨_, _, _, ht⟩ := takes.busy (takes.course.orderly hs₁) tenure
    cases ht.symm.trans hdone
  | returned shuts rest => exact ⟨_, _, _, _, _, shuts, rest⟩

/-- It waits for the reaper to end, or for the registry; and once it has the registry, nothing but
the end of the process keeps it from its reply. -/
inductive Continues (behaviour : Behaviour) (t : Nat) (reaper : Option Nat) (s : Server) : Prop
  | joining {listener : Option Nat} {r : Nat} (ht : s.tasks[t]? = some (.stopReaper listener r))
      (hr : reaper = some r)
      (goes : ∀ job, s.tasks[r]? = some job → job.isOver = true →
        ∃ s', s.step behaviour (.resume t) = some s')
  | closing {listener : Option Nat} {first : Option ServerError} {closing : Option (Nat × Nat)}
      (ht : s.tasks[t]? = some (.closeAll listener first closing))
      (ends : s.lock.isHeldBy t = true →
        ∃ s', Run behaviour s s' ∧
          (s'.isAborted = true ∨ ∃ reply, s'.tasks[t]? = some (.done reply)))
  | returned {reply : Reply} (ht : s.tasks[t]? = some (.done reply))

theorem stopReaper_goes_on {r : Nat} (present : s.isAborted = false)
    (ht : s.tasks[t]? = some (.stopReaper listener r)) (hr : s.tasks[r]? = some job)
    (hj : job.isOver = true) : ∃ s', s.step behaviour (.resume t) = some s' := by
  refine step_of_resume present ?_
  cases job with
  | done | crashed => simp [resume, ht, awaited?, proceed, hr]
  | _ => cases hj

theorem replies_of_tenure (h : s.Orderly)
    (waits : s.tasks[t]? = some (.closeAll listener joined none))
    (tenure : Tenure behaviour t s calls s') (present : s'.isAborted = false) :
    ∃ s'', Run behaviour s' s'' ∧
      (s''.isAborted = true ∨ ∃ reply, s''.tasks[t]? = some (.done reply)) := by
  obtain ⟨later, s₂, hlater, haborted | ⟨s₃, hs, freed⟩⟩ := closing_ends h waits tenure present
  · exact ⟨s₂, hlater.run, .inl haborted⟩
  · obtain ⟨-, -, -, -, first, -, hdone⟩ := closes_all h waits (tenure.trans hlater) hs freed
    exact ⟨s₃, hlater.run.tail ⟨_, hs⟩, .inr ⟨_, hdone⟩⟩

theorem Stage.continues (h : Stage behaviour t reaper s₁ s) (hs₁ : s₁.Orderly)
    (course : Course behaviour t s₁ s) (present : s.isAborted = false) :
    Continues behaviour t reaper s := by
  cases h with
  | joining ht hr =>
    exact .joining ht hr fun job hjob hover => stopReaper_goes_on present ht hjob hover
  | queueing ht hjoins =>
    exact .closing ht fun held => replies_of_tenure (course.orderly hs₁) ht (.start held) present
  | closing takes tenure =>
    have horderly := takes.course.orderly hs₁
    obtain ⟨_, waits⟩ := takes.waits
    obtain ⟨_, _, _, ht⟩ := takes.busy horderly tenure
    exact .closing ht fun _ => replies_of_tenure horderly waits tenure present
  | returned shuts rest =>
    obtain ⟨_, -, hdone⟩ := shuts.keeps_reply hs₁ rest
    exact .returned hdone

/-- It has nothing to stop and nothing to close: its steps change nothing but its own place, and it
comes to its reply. -/
inductive Idles (behaviour : Behaviour) (u : Nat) (s : Server) : Prop
  | waits (hu : s.tasks[u]? = some (.closeAll none none none))
      (nothing : ∀ a s', a.task? = some u → s.step behaviour a = some s' → s' = s.finish u .ok)
      (ends : ∃ s', Lull behaviour s s' ∧ s'.tasks[u]? = some (.done .ok))
  | returned (hu : s.tasks[u]? = some (.done .ok))

namespace Drained

theorem begin_shutdown (behaviour : Behaviour) (h : s.Drained) (hdropped : s.dropped = false) :
    s.step behaviour (.begin .shutdown) =
      some ((s.addTask (.closeAll none none none)).join s.tasks.length) := by
  have hsame : { s with listening := none, reaper := none } = s := by
    obtain ⟨⟨-, hlistening, hreaper⟩, -⟩ := h
    cases s
    cases hlistening
    cases hreaper
    rfl
  have hbegin : s.beginShutdown = (s.addTask (.closeAll none none none)).join s.tasks.length := by
    simp only [beginShutdown, h.listening, h.reaper]
    exact congrArg (fun q => (q.addTask (.closeAll none none none)).join q.tasks.length) hsame
  simp [step, h.present, hdropped, begin, hbegin]

theorem work_nothing (h : s.Drained) (hu : s.tasks[u]? = some (.closeAll none none none))
    (hw : Work s u (.closeAll none none none) s' job') :
    s'.moveTask u (.closeAll none none none) job' = s.finish u .ok := by
  have hsame : { s with registry := [] } = s := by rw [← h.registry]
  rw [finish_eq h.sound hu rfl]
  cases hw.dismisses with
  | close _ hp => simp [h.registry] at hp
  | empty ha =>
    cases ha
    simp only [releaseListener, hsame]
    rfl
  | crash ha => cases ha

theorem idles (behaviour : Behaviour) (h : s.Drained)
    (hu : s.tasks[u]? = some (.closeAll none none none)) : Idles behaviour u s := by
  refine .waits hu (fun a s' ha hs => ?_) ?_
  · obtain ⟨s₁, job', hw, rfl⟩ := work_of_step h.sound hs ha hu
    exact h.work_nothing hu hw
  · obtain ⟨s₁, hl, hdrained, hu₁, held⟩ := h.comes_to_hold behaviour hu rfl
    obtain ⟨s₂, job, job', hu₂, hw, hlulls, -⟩ := hdrained.head_goes_on behaviour held
    obtain rfl := Option.some.inj (hu₁.symm.trans hu₂)
    rw [hdrained.work_nothing hu₁ hw] at hlulls
    exact ⟨_, hl.tail hlulls, (getElem?_set_eq_some hu₁).mpr (.inl ⟨rfl, rfl⟩)⟩

theorem idles_lull (h : s.Drained) (hu : s.tasks[u]? = some (.closeAll none none none))
    (hl : Lull behaviour s s') : Idles behaviour u s' := by
  induction hl with
  | refl => exact h.idles behaviour hu
  | @tail s₁ s₂ hl hn ih =>
    have hdrained := h.lull hl
    cases ih with
    | waits hu₁ nothing =>
      obtain ⟨a, ha, hs⟩ := id hn
      have hafter := hdrained.lull (.single hn)
      rcases (hdrained.sound.turn_of_step hs).task hdrained.sound hu₁ rfl with
        ⟨hsame, -⟩ | ⟨s₃, job', hw, rfl⟩
      · exact hafter.idles behaviour hsame
      · rw [hdrained.work_nothing hu₁ hw]
        exact .returned ((getElem?_set_eq_some hu₁).mpr (.inl ⟨rfl, rfl⟩))
    | returned hu₁ =>
      exact .returned ((Lull.run (.single hn)).keeps_over hdrained.sound hu₁ rfl)

end Drained

theorem Shuts.drained (h : Shuts behaviour t reaper s₁ s joined calls s' s'') (hs₁ : s₁.Orderly)
    (hstopped : s₁.Stopped) : s''.Drained := by
  obtain ⟨hreg, hpresent, -⟩ := h.returned (h.takes.course.orderly hs₁)
  obtain ⟨a, ha, hs⟩ := h.step
  have hlull : Lull behaviour s' s'' := .single ⟨a, not_starts_of_task ha, hs⟩
  exact ⟨((h.course.stopped hstopped).1.lull hlull).1, hreg, hpresent⟩

theorem shutdownReply_eq_ok : shutdownReply first = .ok ↔ first = none := by
  cases first <;> simp [shutdownReply]

theorem shutdown_is_best_effort (behaviour : Behaviour) {s₀ s₁ s₂ : Server}
    (frail : Frail behaviour s₀) (begun : s₀.step behaviour (.begin .shutdown) = some s₁)
    (course : Course behaviour s₀.tasks.length s₁ s₂) :
    s₂.listening = none ∧ s₂.reaper = none ∧
      (s₂.isAborted = false → Continues behaviour s₀.tasks.length s₀.reaper s₂) ∧
      ∀ reply, s₂.tasks[s₀.tasks.length]? = some (.done reply) →
        s₂.registry = [] ∧ (∀ c ∈ s₀.registry, s₂.isConnected c = false) ∧
        (∃ s joined calls s' s'' first,
          Shuts behaviour s₀.tasks.length s₀.reaper s₁ s joined calls s' s'' ∧
          Lull behaviour s'' s₂ ∧ s.registry.Sublist s₀.registry ∧
          calls.map Prod.fst = s.registry ∧ (∀ p ∈ calls, s'.Closed p) ∧
          s'.FirstFailure joined calls first ∧ reply = shutdownReply first ∧
          (reply = .ok ↔ joined = none ∧ ∀ p ∈ calls, s'.Returns p.1 p.2 none)) ∧
        ∀ s₃, Lull behaviour s₂ s₃ → s₃.dropped = false →
          ∃ s₄, s₃.step behaviour (.begin .shutdown) = some s₄ ∧
            s₄ = (s₃.addTask (.closeAll none none none)).join s₃.tasks.length ∧
            ∀ s₅, Lull behaviour s₄ s₅ → Idles behaviour s₃.tasks.length s₅ := by
  have horderly₀ := orderly_of_frail frail
  have horderly₁ := horderly₀.step begun
  obtain ⟨hstopped₁, hreg₁, -, -⟩ := horderly₀.sound.shutdown_begun begun
  obtain ⟨hstopped₂, -⟩ := course.stopped hstopped₁
  have hstage := stage_of_course horderly₁ (stage_begun begun) course
  refine ⟨hstopped₂.listening, hstopped₂.reaper, hstage.continues horderly₁ course, ?_⟩
  intro reply hreply
  obtain ⟨s, joined, calls, s', s'', shuts, rest⟩ := hstage.shuts horderly₁ hreply
  have hdrained := (shuts.drained horderly₁ hstopped₁).lull rest
  obtain ⟨-, -, hall, hclosed, -⟩ := shuts.returned (shuts.takes.course.orderly horderly₁)
  obtain ⟨first, hfirst, hdone⟩ := shuts.keeps_reply horderly₁ rest
  obtain rfl : reply = shutdownReply first :=
    Job.done.inj (Option.some.inj (hreply.symm.trans hdone))
  refine ⟨hdrained.registry, fun c hc => ?_, ?_, fun s₃ hl hdropped => ?_⟩
  · have hgiven := course.given_mono horderly₁
      ((horderly₀.sound.turn_of_step begun).given_mono horderly₀.sound (horderly₀.sound.given hc))
    refine (hdrained.sound.registered_or_gone hgiven).resolve_left ?_
    simp [hdrained.registry]
  · refine ⟨s, joined, calls, s', s'', first, shuts, rest, ?_, hall, hclosed, hfirst, rfl, ?_⟩
    · exact hreg₁ ▸ (shuts.takes.course.stopped hstopped₁).2
    · exact shutdownReply_eq_ok.trans hfirst.eq_none_iff
  · have hdrained₃ := hdrained.lull hl
    have hbegun := hdrained₃.begin_shutdown behaviour hdropped
    have hdrained₄ := hdrained₃.lull (.single ⟨.begin .shutdown, id, hbegun⟩)
    exact ⟨_, hbegun, rfl, fun s₅ hl₅ =>
      hdrained₄.idles_lull (getElem?_concat_eq_some.mpr (.inl ⟨rfl, rfl⟩)) hl₅⟩

def reaping : List Action :=
  [.start 65123 true (.ok address), .begin (.accept 0), .connect 0 visitor, .acceptPeer 1,
    .resume 1, .begin (.accept 0), .connect 0 (visitorOn 10), .acceptPeer 2, .resume 2]

def farewells (first second : Halt) : List Action :=
  [.resume 3, .resume 3, .on 0 (.obtainClosing 1), .on 0 (.halt 1 first), .on 0 .look,
    .on 0 (.finishClose 1), .resume 3, .on 1 (.obtainClosing 1), .on 1 (.halt 1 second),
    .on 1 .look, .on 1 (.finishClose 1), .resume 3]

theorem failed_shutdowns_leave_nobody :
    ∃ s₀ s₁ s₂ s₃ : Server, Frail quietObservers s₀ ∧ s₀.registry = [0, 1] ∧
      s₀.step quietObservers (.begin .shutdown) = some s₁ ∧
      Course quietObservers s₀.tasks.length s₁ s₂ ∧ Course quietObservers s₀.tasks.length s₁ s₃ ∧
      s₂.tasks[s₀.tasks.length]? = some (.done (.failed (.shutdown "reaper: crashed"))) ∧
      s₃.tasks[s₀.tasks.length]? =
        some (.done (.failed (.shutdown "127.0.0.1:10: I/O error: gone"))) ∧
      (∀ c ∈ s₀.registry, s₂.isConnected c = false ∧ s₃.isConnected c = false) ∧
      s₂.registry = [] ∧ s₃.registry = [] := by
  have fails : (steps? quietObservers reaping { config := {} }).any (fun s₀ =>
      (s₀.registry = [0, 1] ∧ s₀.tasks.length = 3) ∧
        (s₀.step quietObservers (.begin .shutdown)).any fun s₁ =>
          (s₁.tasks[3]? = some (.stopReaper (some 0) 0) ∧
            s₁.tasks[0]? = some (.reaper true 0 none)) ∧
          (steps? quietObservers (farewells (.failed "gone") (.failed "lost")) (s₁.crash 0)).any
            (fun s₂ =>
              s₂.tasks[3]? = some (.done (.failed (.shutdown "reaper: crashed")))) ∧
          (steps? quietObservers (.resume 0 :: farewells .halted (.failed "gone")) s₁).any
            (fun s₃ => s₃.tasks[3]? =
              some (.done (.failed (.shutdown "127.0.0.1:10: I/O error: gone"))))) = true := by
    decide +kernel
  obtain ⟨s₀, hrun, hs₀⟩ := (Option.any_eq_true _ _).mp fails
  obtain ⟨⟨hreg, hlen⟩, hs₀⟩ := of_decide_eq_true hs₀
  obtain ⟨s₁, begun, hs₁⟩ := (Option.any_eq_true _ _).mp hs₀
  obtain ⟨⟨waits, reaps⟩, hs₂, hs₃⟩ := of_decide_eq_true hs₁
  obtain ⟨s₂, hrun₂, reply₂⟩ := (Option.any_eq_true _ _).mp hs₂
  obtain ⟨s₃, hrun₃, reply₃⟩ := (Option.any_eq_true _ _).mp hs₃
  have frail : Frail quietObservers s₀ := (reachable_of_steps reaping (.new {}) hrun).frail
  have course₂ : Course quietObservers s₀.tasks.length s₁ s₂ :=
    .head (.panic (hlen ▸ waits) ⟨⟨_, _, _, reaps⟩, rfl⟩)
      (Course.of_lull (lull_of_steps _ rfl hrun₂))
  have course₃ : Course quietObservers s₀.tasks.length s₁ s₃ :=
    .of_lull (lull_of_steps _ rfl hrun₃)
  have reply₂' := of_decide_eq_true reply₂
  have reply₃' := of_decide_eq_true reply₃
  rw [← hlen] at reply₂' reply₃'
  obtain ⟨-, -, -, ends₂⟩ := shutdown_is_best_effort quietObservers frail begun course₂
  obtain ⟨-, -, -, ends₃⟩ := shutdown_is_best_effort quietObservers frail begun course₃
  obtain ⟨empty₂, gone₂, -⟩ := ends₂ _ reply₂'
  obtain ⟨empty₃, gone₃, -⟩ := ends₃ _ reply₃'
  exact ⟨s₀, s₁, s₂, s₃, frail, hreg, begun, course₂, course₃, reply₂', reply₃',
    fun c hc => ⟨gone₂ c hc, gone₃ c hc⟩, empty₂, empty₃⟩

end Fanout.Server
