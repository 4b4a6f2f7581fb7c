import Fanout.Proofs.Server.Drained
import Fanout.Proofs.Server.LiveCount

namespace Fanout.Server

variable {behaviour : Behaviour} {s s' s₁ s₂ : Server} {t u c k call place : Nat} {job job' : Job}
  {a : Action} {reply : Reply} {listener : Option Nat} {first : Option ServerError}
  {closing : Option (Nat × Nat)}

inductive ShuttingDown (s : Server) : Job → Prop
  | underWay {job : Job} (hj : job.isShutdown = true) : ShuttingDown s job
  | returned (reply : Reply) (hs : s.Drained) : ShuttingDown s (.done reply)
  | crashed : ShuttingDown s .crashed

theorem Work.shuttingDown (hpresent : s.isAborted = false)
    (hstopped : (s₁.moveTask t job job').Stopped) (hw : Work s t job s₁ job')
    (hj : job.isShutdown = true) : ShuttingDown (s₁.moveTask t job job') job' := by
  cases hw with
  | reaperStopped | reaperCrashed | closeNext => exact .underWay rfl
  | @closeEnd listener => cases listener <;> exact .returned _ ⟨hstopped, rfl, hpresent⟩
  | sweepNext sweeper | sweepEnd sweeper =>
    cases sweeper <;> simp [Sweeper.job, Job.isShutdown] at hj
  | crash => exact .crashed
  | _ => simp [Job.isShutdown] at hj

theorem ShuttingDown.not_reaper (h : ShuttingDown s job) : job.isReaper = false := by
  cases h with
  | underWay hj => exact Job.not_reaper_of_shutdown hj
  | returned | crashed => rfl

theorem ShuttingDown.turn (h : ShuttingDown s job) (ha : ¬ a.Starts s)
    (ht : Turn behaviour s a s') : ShuttingDown s' job := by
  cases h with
  | underWay hj => exact .underWay hj
  | returned reply hs => exact .returned reply (hs.turn ha ht)
  | crashed => exact .crashed

theorem Stopped.drained (hreach : Reachable behaviour s) (h : s.Stopped)
    (hl : Lull behaviour s s') (hu : s.tasks[u]? = some job) (hj : job.isShutdown = true)
    (hr : s'.tasks[u]? = some (.done reply)) : s'.Drained := by
  obtain ⟨job', hu', hp⟩ :=
    h.task_lull (P := ShuttingDown) hreach hl hu (.underWay hj) ShuttingDown.not_reaper
      (fun ha ht hp => hp.turn ha ht)
      (fun _ _ hpresent hstopped hw hp => by
        cases hp with
        | underWay hj => exact hw.shuttingDown hpresent hstopped hj
        | returned => exact absurd rfl hw.undone
        | crashed => exact absurd rfl hw.uncrashed)
  obtain rfl := Option.some.inj (hu'.symm.trans hr)
  cases hp with
  | underWay hj => simp [Job.isShutdown] at hj
  | returned _ hs => exact hs

def TakesRegistry (s : Server) (t : Nat) : Prop :=
  s.lock.isHeldBy t = true ∧ ∃ listener first, s.tasks[t]? = some (.closeAll listener first none)

def ClosedBy (behaviour : Behaviour) (s : Server) (t c : Nat) (s₂ : Server) : Prop :=
  ∃ s' place call listener first failure, Lull behaviour s s' ∧ Lull behaviour s' s₂ ∧
    s'.tasks[t]? = some (.closeAll listener first (some (place, call))) ∧
    s'.registry[place]? = some c ∧ s₂.Returns c call failure

theorem ClosedBy.head (hn : Lulls behaviour s s') (h : ClosedBy behaviour s' t c s₂) :
    ClosedBy behaviour s t c s₂ := by
  obtain ⟨s'', place, call, listener, first, failure, hl, h⟩ := h
  exact ⟨s'', place, call, listener, first, failure, hl.head hn, h⟩

def next : Option (Nat × Nat) → Nat
  | none => 0
  | some (place, _) => place

theorem Stopped.arrives_or_closed {failure : Failure} {from' : Nat} (h : s.Stopped)
    (hl : Lull behaviour s s₂) (ht : s.tasks[t]? = some (.closeAll listener first closing))
    (ha : s.Arrives t closing from' failure) (hp : s.registry[place]? = some c)
    (hplace : next closing ≤ place) : from' ≤ place ∨ ClosedBy behaviour s t c s₂ := by
  cases ha with
  | first => exact .inl hplace
  | @next k call d failure hk hr =>
    rcases Nat.lt_or_eq_of_le hplace with hlt | heq
    · exact .inl hlt
    · obtain rfl : k = place := heq
      obtain rfl := Option.some.inj (hk.symm.trans hp)
      exact .inr ⟨s, k, call, listener, first, failure, .refl, hl, ht, hk, hl.returns h.sound hr⟩

theorem closes_rest (hreach : Reachable behaviour s) (h : s.Stopped) (hl : Lull behaviour s s₂)
    (hdone : s₂.tasks[t]? = some (.done reply))
    (ht : s.tasks[t]? = some (.closeAll listener first closing))
    (held : s.lock.isHeldBy t = true) (hp : s.registry[place]? = some c)
    (hplace : next closing ≤ place) : ClosedBy behaviour s t c s₂ := by
  -- By induction on the run, from its first step on.
  induction hl using Relation.ReflTransGen.head_induction_on generalizing first closing with
  | refl => simp [hdone] at ht
  | @head s s' hn hl ih =>
    have hall : Lull behaviour s s₂ := hl.head hn
    obtain ⟨a, ha, hs⟩ := id hn
    have hturn := h.sound.turn_of_step hs
    obtain ⟨h', -⟩ := h.turn ha hturn
    rcases hturn.task h.sound ht rfl with ⟨hsame, hkept⟩ | ⟨s₁, job', hw, rfl⟩
    · obtain ⟨hreg, held'⟩ := hkept held
      exact (ih (.step a hreach hs) h' hsame held' (hreg ▸ hp) hplace).head hn
    · have hsame := hw.moved_job ht
      cases hw.dismisses with
      | close harr =>
        rcases h.arrives_or_closed hall ht harr hp hplace with hle | hclosed
        · refine (ih (.step a hreach hs) h' hsame ?_ hp hle).head hn
          cases closing <;> exact held
        · exact hclosed
      | empty harr hk =>
        refine (h.arrives_or_closed hall ht harr hp hplace).resolve_left fun hle => ?_
        have hnone := List.getElem?_eq_none (Nat.le_trans (List.getElem?_eq_none_iff.mp hk) hle)
        simp [hnone] at hp
      | crash =>
        have hcrashed := (Lull.run hl).keeps_over h'.sound hsame rfl
        simp [hdone] at hcrashed

inductive Approaches : Job → Prop
  | reaper (listener : Option Nat) (r : Nat) : Approaches (.stopReaper listener r)
  | registry (listener : Option Nat) (first : Option ServerError) :
      Approaches (.closeAll listener first none)

theorem Approaches.isShutdown (h : Approaches job) : job.isShutdown = true := by
  cases h <;> rfl

theorem Work.approaches (hw : Work s t job s₁ job') (hj : Approaches job) :
    Approaches job' ∨
      s.lock.isHeldBy t = true ∧ ∃ listener first, job = .closeAll listener first none := by
  cases hw with
  | reaperStopped | reaperCrashed => exact .inl (.registry _ _)
  | closeNext ha | closeEnd ha =>
    cases hj
    cases ha with
    | first held => exact .inr ⟨held, _, _, rfl⟩
  | sweepNext sweeper | sweepEnd sweeper => cases sweeper <;> cases hj
  | crash ha => cases hj <;> simp [awaited?] at ha
  | _ => cases hj

theorem Stopped.takes_registry (h : s.Stopped) (hl : Lull behaviour s s₂)
    (ht : s.tasks[t]? = some job) (hj : Approaches job)
    (hdone : s₂.tasks[t]? = some (.done reply)) :
    ∃ s', Lull behaviour s s' ∧ Lull behaviour s' s₂ ∧ s'.TakesRegistry t := by
  induction hl using Relation.ReflTransGen.head_induction_on generalizing job with
  | refl =>
    obtain rfl := Option.some.inj (ht.symm.trans hdone)
    cases hj
  | @head s s' hn hl ih =>
    obtain ⟨a, ha, hs⟩ := id hn
    have hturn := h.sound.turn_of_step hs
    have later {job' : Job} (ht' : s'.tasks[t]? = some job') (hj' : Approaches job') :
        ∃ s', Lull behaviour s s' ∧ Lull behaviour s' s₂ ∧ s'.TakesRegistry t := by
      obtain ⟨s'', h₁, h₂, htakes⟩ := ih (h.turn ha hturn).1 ht' hj'
      exact ⟨s'', h₁.head hn, h₂, htakes⟩
    rcases hturn.task h.sound ht (Job.not_reaper_of_shutdown hj.isShutdown) with
      ⟨hsame, -⟩ | ⟨s₁, job', hw, rfl⟩
    · exact later hsame hj
    · rcases hw.approaches hj with hj' | ⟨held, listener, first, rfl⟩
      · exact later (hw.moved_job ht) hj'
      · exact ⟨s, .refl, hl.head hn, held, listener, first, ht⟩

theorem begins_of_shutdown (hs : s.step behaviour (.begin .shutdown) = some s₁) :
    ∃ s' job, Begins s .shutdown s' job ∧ s₁ = s'.enterTask job := by
  unfold step at hs
  split at hs
  · exact absurd hs nofun
  · dsimp only at hs
    split at hs
    · exact absurd hs nofun
    · exact begins_of_begin hs

theorem Sound.shutdown_begun (h : s.Sound) (hs : s.step behaviour (.begin .shutdown) = some s₁) :
    s₁.Stopped ∧ s₁.registry = s.registry ∧
      (∃ job, s₁.tasks[s.tasks.length]? = some job ∧ Approaches job) ∧
      ∀ {u : Nat} {job : Job}, job.isAccepting = true →
        (s₁.tasks[u]? = some job ↔ s.tasks[u]? = some job) := by
  have hsound := h.turn (h.turn_of_step hs)
  obtain ⟨s', job, hb, rfl⟩ := begins_of_shutdown hs
  obtain ⟨hreg, -, hlen⟩ := hb.frame
  obtain ⟨-, -, -, -, -, hun, hreaper⟩ := unlisten_frame s
  have happroaches : Approaches job := by
    cases hb with
    | stopReaper => exact .reaper _ _
    | closeAll => exact .registry _ _
  refine ⟨?_, hreg, ⟨job, getElem?_concat_eq_some.mpr (.inl ⟨hlen.symm, rfl⟩), happroaches⟩, ?_⟩
  · cases hb with
    | stopReaper => exact ⟨hsound, (cancelReaper_frame s.unlisten _).2.2.2.2.1.trans hun, rfl⟩
    | closeAll hr => exact ⟨hsound, hun, hreaper.trans hr⟩
  · intro u job' hj
    have hkept := hb.kept (u := u) (Job.not_reaper_of_accepting hj)
    refine getElem?_concat_eq_some.trans ⟨fun hu => ?_, fun hu => .inr (hkept.mpr hu)⟩
    rcases hu with ⟨-, rfl⟩ | hold
    · cases happroaches <;> simp [Job.isAccepting] at hj
    · exact hkept.mp hold

theorem Work.accepting (hw : Work s t job s₁ job') (hj : job'.isAccepting = true) :
    job.isAccepting = true := by
  cases hw with
  | acceptPeer | refuse => rfl
  | sweepNext sweeper | sweepEnd sweeper =>
    cases sweeper <;> simp [Sweeper.job, Sweeper.rest, Job.isAccepting] at hj
  | _ => simp [Job.isAccepting] at hj

theorem Stopped.accepting_turn (h : s.Stopped) (ha : ¬ a.Starts s) (ht : Turn behaviour s a s')
    (hu : s'.tasks[u]? = some job') (hj : job'.isAccepting = true) :
    ∃ job, s.tasks[u]? = some job ∧ job.isAccepting = true := by
  have hreaper := Job.not_reaper_of_accepting hj
  cases ht with
  | start _ ha' | startReaping _ ha' | replaceReaper _ ha' => exact absurd ha' ha
  | rest | subscribe | connect | pass | on => exact ⟨job', hu, hj⟩
  | begin _ hb =>
    rcases getElem?_concat_eq_some.mp hu with ⟨-, rfl⟩ | hold
    · cases hb with
      | accept secs hl => simp [h.listening] at hl
      | _ => simp [Job.isAccepting] at hj
    · exact ⟨job', (hb.kept hreaper).mp hold, hj⟩
  | drop => exact ⟨job', (drop_kept hreaper).mp hu, hj⟩
  | work _ hw =>
    obtain ⟨job, s₁, job'', ht, hw, rfl⟩ := hw
    rcases (hw.tasks_iff ht).mp hu with ⟨rfl, rfl⟩ | ⟨-, hold⟩
    · exact ⟨job, ht, hw.accepting hj⟩
    · exact ⟨job', hold, hj⟩

theorem Stopped.accepting_lull (h : s.Stopped) (hl : Lull behaviour s s')
    (hu : s'.tasks[u]? = some job') (hj : job'.isAccepting = true) :
    ∃ job, s.tasks[u]? = some job ∧ job.isAccepting = true := by
  induction hl generalizing job' with
  | refl => exact ⟨job', hu, hj⟩
  | tail hl hn ih =>
    obtain ⟨a, ha, hs⟩ := hn
    have h' := (h.lull hl).1
    obtain ⟨job, hu', hj'⟩ := h'.accepting_turn ha (h'.sound.turn_of_step hs) hu hj
    exact ih hu' hj'

theorem Sound.registered_or_gone (h : s.Sound) (hg : s.isGiven c = true) :
    c ∈ s.registry ∨ s.isConnected c = false := by
  obtain ⟨x, hx, hin | hshut⟩ := h.given_fits hg
  · exact .inl hin
  · exact .inr ((isConnected_eq_false hx).mpr hshut.phase)

theorem Stopped.isListening (h : s.Stopped) : s.isListening = false := by
  simp [Server.isListening, h.listening]

theorem Drained.accepts_refused (h : s.Drained) (hdropped : s.dropped = false) (secs : Nat) :
    s.step behaviour (.begin (.accept secs)) =
      some (s.addTask (.done (.failed .listenerClosed))) := by
  simp [step, h.present, hdropped, begin, beginAccept, h.listening]

theorem Drained.live_eq_zero (hreach : Reachable behaviour s) (h : s.Drained)
    (hover : ∀ (u : Nat) (job : Job), s.tasks[u]? = some job → job.isAccepting = false) :
    s.live = 0 := by
  rw [(tallied_of_reachable hreach).live, tally, List.countP_eq_zero]
  intro c _ hlive
  simp only [isCountedLive, Bool.and_eq_true] at hlive
  rcases h.sound.registered_or_refused hlive.1 hlive.2 with hin | ⟨u, call, x, p, hu, -⟩
  · simp [h.registry] at hin
  · exact Bool.false_ne_true (hover u _ hu).symm

theorem shutdown_is_final (behaviour : Behaviour) {s₀ s₁ s₂ : Server} {reply : Reply}
    (reachable : Reachable behaviour s₀)
    (begun : s₀.step behaviour (.begin .shutdown) = some s₁) (run : Lull behaviour s₁ s₂)
    (returned : s₂.tasks[s₀.tasks.length]? = some (.done reply)) :
    s₂.isListening = false ∧ s₂.reaper = none ∧ s₂.registry = [] ∧
      (∀ c, s₂.isGiven c = true → s₂.isConnected c = false) ∧
      (∃ s, Lull behaviour s₁ s ∧ Lull behaviour s s₂ ∧ s.TakesRegistry s₀.tasks.length ∧
        (∀ c, s.isGiven c = true → c ∈ s.registry ∨ s.isConnected c = false) ∧
        ∀ c ∈ s.registry, ClosedBy behaviour s s₀.tasks.length c s₂) ∧
      (∀ (u : Nat) (job : Job), s₀.tasks[u]? = some job → job.isAccepting = true →
        ∀ s, Lull behaviour s₁ s → s.registry.Sublist s₀.registry ∧
          ∃ job', s.tasks[u]? = some job' ∧ Overtaken behaviour job') ∧
      ∀ s₃, Lull behaviour s₂ s₃ →
        s₃.isListening = false ∧ s₃.registry = [] ∧
          (s₃.dropped = false → ∀ secs, s₃.step behaviour (.begin (.accept secs)) =
            some (s₃.addTask (.done (.failed .listenerClosed)))) ∧
          (∀ (u : Nat) (job : Job), s₀.tasks[u]? = some job → job.isAccepting = true →
            ∃ s₄ job', Lull behaviour s₃ s₄ ∧ s₄.tasks[u]? = some job' ∧ job'.isOver = true) ∧
          ((∀ (u : Nat) (job job' : Job), s₀.tasks[u]? = some job → job.isAccepting = true →
            s₃.tasks[u]? = some job' → job'.isOver = true) → s₃.live = 0) := by
  obtain ⟨hstopped, hreg, ⟨job₁, hjob₁, happroaches⟩, hkept⟩ :=
    (sound_of_reachable reachable).shutdown_begun begun
  have hreach₁ : Reachable behaviour s₁ := .step _ reachable begun
  have hdrained : s₂.Drained := hstopped.drained hreach₁ run hjob₁ happroaches.isShutdown returned
  have hovertaken {u : Nat} {job : Job} {s : Server} (hl : Lull behaviour s₁ s)
      (hu : s₀.tasks[u]? = some job) (hj : job.isAccepting = true) :
      ∃ job', s.tasks[u]? = some job' ∧ Overtaken behaviour job' :=
    hstopped.overtaken hreach₁ hl ((hkept hj).mpr hu) hj
  refine ⟨hdrained.toStopped.isListening, hdrained.reaper, hdrained.registry, ?_, ?_, ?_, ?_⟩
  · intro c hg
    exact (hdrained.sound.registered_or_gone hg).resolve_left (by simp [hdrained.registry])
  · obtain ⟨s, hl, hl', htakes⟩ := hstopped.takes_registry run hjob₁ happroaches returned
    obtain ⟨held, listener, first, ht⟩ := id htakes
    have h := (hstopped.lull hl).1
    refine ⟨s, hl, hl', htakes, fun c hg => h.sound.registered_or_gone hg, ?_⟩
    intro c hc
    obtain ⟨place, hp⟩ := List.mem_iff_getElem?.mp hc
    exact closes_rest (hl.reachable hreach₁) h hl' returned ht held hp (Nat.zero_le place)
  · intro u job hu hj s hl
    exact ⟨hreg ▸ (hstopped.lull hl).2, hovertaken hl hu hj⟩
  · intro s₃ hl
    have hdrained₃ := hdrained.lull hl
    have hl₃ : Lull behaviour s₁ s₃ := run.trans hl
    refine ⟨hdrained₃.toStopped.isListening, hdrained₃.registry, hdrained₃.accepts_refused, ?_, ?_⟩
    · intro u job hu hj
      obtain ⟨job', hu', hovertaken'⟩ := hovertaken hl₃ hu hj
      cases hovertaken' with
      | underWay hj' => exact hdrained₃.accept_ends behaviour hu' hj'
      | failed | crashed => exact ⟨s₃, _, .refl, hu', rfl⟩
    · intro hover
      refine hdrained₃.live_eq_zero (hl₃.reachable hreach₁) fun u job hu => ?_
      refine Bool.eq_false_iff.mpr fun hj => ?_
      obtain ⟨job₀, hu₁, hj₀⟩ := hstopped.accepting_lull hl₃ hu hj
      have hended := hover u job₀ job ((hkept hj₀).mp hu₁) hj₀ hu
      cases job <;> simp [Job.isOver, Job.isAccepting] at hended hj

def crowd : List Action :=
  opening ++ [.resume 0, .begin (.accept 0), .connect 0 (visitorOn 10), .acceptPeer 1]

def crowded : Server :=
  (steps? quietObservers crowd { config := {} }).getD { config := {} }

def dispersal : List Action :=
  [.resume 1, .on 1 (.obtainClosing 0), .on 1 (.halt 0 .halted), .on 1 (.finishClose 0), .resume 1,
    .resume 2, .on 0 (.obtainClosing 1), .on 0 (.halt 1 .halted), .on 0 .look,
    .on 0 (.finishClose 1), .resume 2]

def dispersed : Server :=
  (steps? quietObservers dispersal crowded.beginShutdown).getD crowded

theorem crowd_is_dispersed :
    Reachable quietObservers crowded ∧
      crowded.step quietObservers (.begin .shutdown) = some crowded.beginShutdown ∧
      Lull quietObservers crowded.beginShutdown dispersed ∧
      dispersed.tasks[crowded.tasks.length]? = some (.done .ok) ∧
      dispersed.isGiven 0 = true ∧ dispersed.isConnected 0 = false ∧ dispersed.live = 0 := by
  have reachable : Reachable quietObservers crowded := reachable_of_steps crowd (.new {}) rfl
  have begun : crowded.step quietObservers (.begin .shutdown) = some crowded.beginShutdown := rfl
  have run : Lull quietObservers crowded.beginShutdown dispersed :=
    lull_of_steps dispersal rfl rfl
  have returned : dispersed.tasks[crowded.tasks.length]? = some (.done .ok) := rfl
  have final := shutdown_is_final quietObservers reachable begun run returned
  obtain ⟨-, -, -, gone, -, -, after⟩ := final
  refine ⟨reachable, begun, run, returned, rfl, gone 0 rfl, ?_⟩
  refine (after _ .refl).2.2.2.2 fun u _ job' _ _ hu => ?_
  have hover : dispersed.tasks.all Job.isOver = true := rfl
  exact List.all_eq_true.mp hover job' (List.mem_of_getElem? hu)

end Fanout.Server
