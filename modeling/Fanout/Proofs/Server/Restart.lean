import Fanout.Proofs.Server.Admission
import Fanout.Proofs.Server.Amendment

namespace Fanout

def Job.listener? : Job → Option Nat
  | .accept _ _ l => some l
  | .register l _ => some l
  | _ => none

theorem Lock.ordered_moved {l : Lock} {i j k : Nat} {p q : Lock.Standing}
    (h : [i, j].Sublist l.queue) (hnodup : l.queue.Nodup) (hi : i ∈ (l.moved k p q).queue)
    (hj : j ∈ (l.moved k p q).queue) : [i, j].Sublist (l.moved k p q).queue := by
  rcases l.moved_cases k p q with heq | heq | heq <;> rw [heq] at hi hj ⊢
  · exact h
  · exact h.trans (List.sublist_append_left _ _)
  · have hik : i ≠ k := (hnodup.mem_erase_iff.mp hi).1
    have hjk : j ≠ k := (hnodup.mem_erase_iff.mp hj).1
    have herase : [i, j].erase k = [i, j] := List.erase_of_not_mem (by simp [hik.symm, hjk.symm])
    exact herase ▸ h.erase k

namespace Server

variable {behaviour : Behaviour} {s s' s₁ q r r' : Server} {t u l c n m place call : Nat}
  {job job' : Job} {a : Action} {listener : Option Nat} {first : Option ServerError}
  {closing : Option (Nat × Nat)}

theorem Turn.lock_eq (ht : Turn behaviour s a s') : ∃ k p q, s'.lock = s.lock.moved k p q := by
  have same (h : s'.lock = s.lock) : ∃ k p q, s'.lock = s.lock.moved k p q :=
    ⟨0, .outside, .outside, h⟩
  cases ht with
  | start | startReaping | rest | subscribe | connect | pass | on => exact same rfl
  | replaceReaper => exact same (cancelReaper_frame _ _).2.2.2.1
  | drop => exact same (drop_frame s).2.2.2.1
  | begin _ hb =>
    simp only [enterTask, hb.frame.2.1]
    exact ⟨_, _, _, rfl⟩
  | work _ hw =>
    obtain ⟨job, s₁, job', -, hw, rfl⟩ := hw
    simp only [moveTask, hw.frame.1]
    exact ⟨_, _, _, rfl⟩

theorem Changes.length_le {connections : List Connection} (h : Changes behaviour s connections) :
    s.connections.length ≤ connections.length := by
  cases h <;> simp

theorem Work.listeners_length (hw : Work s t job s₁ job') :
    s₁.listeners.length = s.listeners.length := by
  cases hw with
  | acceptReset | acceptPeer => exact List.length_modify _ _ _
  | sweepNext _ _ hs | sweepEnd _ _ hs => cases hs <;> rfl
  | @closeEnd listener =>
    cases listener with
    | none => rfl
    | some l => exact List.length_modify _ _ _
  | _ => rfl

theorem unlisten_listeners (s : Server) : s.unlisten.listeners.length = s.listeners.length := by
  unfold unlisten
  cases s.listening with
  | none => rfl
  | some l => exact List.length_modify _ _ _

theorem cancelReaper_listeners (s : Server) (r : Nat) :
    (s.cancelReaper r).listeners = s.listeners := by
  rcases cancelReaper_cases s r with heq | ⟨_, _, _, -, heq⟩ <;> rw [heq]
  rfl

theorem drop_listeners (s : Server) : s.drop.listeners.length = s.listeners.length := by
  have hlistener : s.dropListener.listeners.length = s.listeners.length := by
    unfold dropListener
    cases s.listening with
    | none => rfl
    | some l => exact List.length_modify _ _ _
  rw [drop_eq]
  cases s.reaper with
  | none => exact hlistener
  | some r => exact (congrArg List.length (cancelReaper_listeners _ r)).trans hlistener

theorem Begins.listeners_length {r : Request} (hb : Begins s r s₁ job) :
    s₁.listeners.length = s.listeners.length := by
  have hun := unlisten_listeners s
  cases hb with
  | stopReaper => exact (congrArg List.length (cancelReaper_listeners _ _)).trans hun
  | closeAll => exact hun
  | _ => rfl

theorem Begins.listening_of_some {r : Request} (hb : Begins s r s₁ job)
    (hl : s₁.listening = some l) : s.listening = some l := by
  have hun : s.unlisten.listening = none := (unlisten_frame s).2.2.2.2.2.1
  cases hb with
  | @stopReaper r =>
    have hnone : (s.unlisten.cancelReaper r).listening = none :=
      (cancelReaper_frame _ _).2.2.2.2.1.trans hun
    exact absurd (hnone.symm.trans hl) nofun
  | closeAll => exact absurd (hun.symm.trans hl) nofun
  | _ => exact hl

theorem Begins.listener_eq {r : Request} (hb : Begins s r s₁ job) (hl : job.listener? = some l) :
    s.listening = some l := by
  cases hb with
  | accept _ hlistening => exact hlistening.trans hl
  | _ => exact absurd hl nofun

theorem Work.of_registered (hw : Work s t job s₁ (.register l c)) :
    job.standing = .outside ∧ job.listener? = some l ∧ c = s.connections.length := by
  generalize hj : Job.register l c = job' at hw
  cases hw with
  | acceptPeer =>
    obtain ⟨rfl, rfl⟩ := Job.register.inj hj
    exact ⟨rfl, rfl, rfl⟩
  | sweepNext sweeper | sweepEnd sweeper =>
    cases sweeper <;> simp [Sweeper.job, Sweeper.rest] at hj
  | _ => simp at hj

theorem Work.listener_eq (hw : Work s t job s₁ job') (hl : job'.listener? = some l) :
    job.listener? = some l := by
  cases hw with
  | acceptPeer => exact hl
  | sweepNext sweeper | sweepEnd sweeper => cases sweeper <;> exact absurd hl nofun
  | _ => exact absurd hl nofun

structure Hosted (s : Server) : Prop where
  listening : ∀ {l : Nat}, s.listening = some l → l < s.listeners.length
  accepting : ∀ {u l : Nat} {job : Job}, s.tasks[u]? = some job → job.listener? = some l →
    l < s.listeners.length

theorem Hosted.turn (h : s.Hosted) (hs : s.Sound) (ht : Turn behaviour s a s') : s'.Hosted := by
  have within (hlen : s.listeners.length ≤ s'.listeners.length)
      (hlistening : ∀ {l : Nat}, s'.listening = some l → l < s'.listeners.length) : s'.Hosted := by
    refine ⟨hlistening, ?_⟩
    intro u l job hu hl
    have hreaper : job.isReaper = false := by cases job <;> first | rfl | cases hl
    refine Nat.lt_of_lt_of_le ?_ hlen
    rcases ht.task_origin hs hu hreaper with ⟨hold, -⟩ | ⟨r, s₁, hb⟩ | ⟨other, s₁, -, hother, hw, -⟩
    · exact h.accepting hold hl
    · exact h.listening (hb.listener_eq hl)
    · exact h.accepting hother (hw.listener_eq hl)
  have opens (address : SocketAddress) :
      (s.opened address).listeners.length = s.listeners.length + 1 := List.length_append
  cases ht with
  | start address | startReaping address =>
    have hlen := opens address
    refine within (Nat.le.intro hlen.symm) fun hl => ?_
    obtain rfl := Option.some.inj hl
    exact Nat.lt_of_lt_of_eq (Nat.lt_succ_self _) hlen.symm
  | @replaceReaper previous address =>
    have hlisteners := cancelReaper_listeners (s.opened address).spawnReaper previous
    have hlistening := (cancelReaper_frame (s.opened address).spawnReaper previous).2.2.2.2.1
    have hlen := (congrArg List.length hlisteners).trans (opens address)
    refine within (Nat.le.intro hlen.symm) fun hl => ?_
    obtain rfl := Option.some.inj (hlistening.symm.trans hl)
    exact Nat.lt_of_lt_of_eq (Nat.lt_succ_self _) hlen.symm
  | rest | subscribe | pass | on => exact within (Nat.le_refl _) h.listening
  | connect =>
    exact within (by simp [changeListener]) fun hl => by simpa [changeListener] using h.listening hl
  | begin _ hb =>
    have hlen := hb.listeners_length
    refine within (Nat.le_of_eq hlen.symm) fun hl => ?_
    have hlt := h.listening (hb.listening_of_some hl)
    exact hlen ▸ hlt
  | drop =>
    have hnone : s.drop.listening = none := (drop_frame s).2.2.2.2.1
    refine within (Nat.le_of_eq (drop_listeners s).symm) fun hl => ?_
    cases hnone.symm.trans hl
  | work _ hw =>
    obtain ⟨job, s₁, job', -, hw, rfl⟩ := hw
    have hlen := hw.listeners_length
    refine within (Nat.le_of_eq hlen.symm) fun hl => ?_
    have hlt := h.listening (hw.frame.2.2.1.symm.trans hl)
    exact hlen ▸ hlt

theorem hosted_of_reachable (h : Reachable behaviour s) : s.Hosted := by
  induction h with
  | new config => exact ⟨nofun, by simp⟩
  | step a hreach hs ih =>
    have hsound := sound_of_reachable hreach
    exact ih.turn hsound (hsound.turn_of_step hs)

def Later (s : Server) (m n : Nat) : Prop :=
  ∀ {u l c : Nat}, s.tasks[u]? = some (.register l c) → m ≤ l → n ≤ c

theorem Later.run (hreach : Reachable behaviour s) (run : Run behaviour s s') :
    s.connections.length ≤ s'.connections.length ∧
      s'.Later s.listeners.length s.connections.length := by
  induction run with
  | refl =>
    refine ⟨Nat.le_refl _, fun hu hm => ?_⟩
    exact absurd ((hosted_of_reachable hreach).accepting hu rfl) (Nat.not_lt.mpr hm)
  | @tail s₁ s₂ run hn ih =>
    obtain ⟨a, hs⟩ := hn
    obtain ⟨hlen, hlater⟩ := ih
    have hsound := sound_of_reachable (Run.reachable run hreach)
    have hturn := hsound.turn_of_step hs
    refine ⟨Nat.le_trans hlen hturn.changes.length_le, fun hu hm => ?_⟩
    rcases hturn.task_origin hsound hu rfl with ⟨hold, -⟩ | ⟨r, s₃, hb⟩ | ⟨job, s₃, -, hjob, hw, -⟩
    · exact hlater hold hm
    · cases hb
    · obtain ⟨-, -, rfl⟩ := hw.of_registered
      exact hlen

def IsClosing (s : Server) (t : Nat) : Prop :=
  ∃ listener first closing, s.tasks[t]? = some (.closeAll listener first closing)

/-- Only the first `n` connections come to the registry before the shutdown has left it. -/
structure Fenced (s : Server) (t n : Nat) : Prop where
  closing : s.IsClosing t
  registered : ∀ c ∈ s.registry, c < n
  behind : ∀ {u l c : Nat}, s.tasks[u]? = some (.register l c) → n ≤ c →
    [t, u].Sublist s.lock.queue

theorem Sound.fenced (h : s.Sound) (hclosing : s.IsClosing t) :
    s.Fenced t s.connections.length where
  closing := hclosing
  registered c hc := by
    obtain ⟨x, hx, -⟩ := h.given_fits (h.given hc)
    exact (List.getElem?_eq_some_iff.mp hx).1
  behind hu hc := by
    obtain ⟨x, hx⟩ := h.own_known hu rfl
    exact absurd (List.getElem?_eq_some_iff.mp hx).1 (Nat.not_lt.mpr hc)

theorem Sound.queued_of_closing (h : s.Sound) (hclosing : s.IsClosing t) : t ∈ s.lock.queue := by
  obtain ⟨listener, first, closing, ht⟩ := hclosing
  refine (h.lock.mem_queue_iff (a := (Job.closeAll listener first closing).standing) ?_).mpr ?_
  · simp [ht]
  · cases closing <;> exact nofun

theorem Sound.queued_of_registering (h : s.Sound) (hu : s.tasks[u]? = some (.register l c)) :
    u ∈ s.lock.queue :=
  (h.lock.mem_iff u).mpr (.inl (by simp [hu, Job.standing]))

theorem Turn.held_of_accepted (h : s.Sound) (ht : Turn behaviour s a s')
    (hu : s.tasks[u]? = some (.register l c)) (hdone : s'.tasks[u]? = some (.done (.accepted c))) :
    s.lock.isHeldBy u = true := by
  rcases ht.task h hu rfl with ⟨hsame, -⟩ | ⟨s₁, job', hw, -⟩
  · exact absurd (Option.some.inj (hsame.symm.trans hdone)) nofun
  · exact hw.of_registering.1

namespace Fenced

theorem not_held (h : s.Fenced t n) (hs : s.Sound) (hu : s.tasks[u]? = some (.register l c))
    (held : s.lock.isHeldBy u = true) : c < n := by
  refine Nat.lt_of_not_le fun hc => ?_
  obtain ⟨rest, hq⟩ := (Lock.isHeldBy_iff _ _).mp held
  have hnodup := hs.lock.nodup
  have hsub := h.behind hu hc
  rw [hq] at hnodup hsub
  have hne : t ≠ u := by
    rintro rfl
    obtain ⟨listener, first, closing, ht⟩ := h.closing
    exact absurd (Option.some.inj (ht.symm.trans hu)) nofun
  have hrest : [t, u].Sublist rest := by
    cases hsub with
    | cons _ hsub => exact hsub
    | cons_cons => exact absurd rfl hne
  exact (List.nodup_cons.mp hnodup).1 (hrest.subset (by simp))

theorem turn (h : s.Fenced t n) (hs : s.Sound) (htrail : s.Trailed)
    (ht : Turn behaviour s a s') :
    s'.Fenced t n ∨ ∃ job, s'.tasks[t]? = some job ∧ job.isOver = true := by
  obtain ⟨listener, first, closing, hjob⟩ := id h.closing
  have hs' := hs.turn ht
  have fenced (hclosing : s'.IsClosing t) : s'.Fenced t n := by
    refine ⟨hclosing, ?_, ?_⟩
    · intro c hc
      cases ht.amends hs htrail with
      | keeps hr => exact h.registered c (hr ▸ hc)
      | @enlists d ha hr =>
        rcases List.mem_append.mp (hr ▸ hc) with hold | hnew
        · exact h.registered c hold
        · obtain rfl := List.mem_singleton.mp hnew
          obtain ⟨u, l, -, hu, hdone⟩ := ha
          exact h.not_held hs hu (ht.held_of_accepted hs hu hdone)
      | evicts _ _ _ hr => exact h.registered c (List.mem_of_mem_eraseIdx (hr ▸ hc))
      | empties _ _ hr => exact absurd (hr ▸ hc) List.not_mem_nil
    · intro u l c hu hc
      have ht' := hs'.queued_of_closing hclosing
      have hu' := hs'.queued_of_registering hu
      rcases ht.task_origin hs hu rfl with ⟨hold, -⟩ | ⟨r, s₁, hb⟩ | ⟨job, s₁, -, -, hw, rfl⟩
      · obtain ⟨k, p, q, hlock⟩ := ht.lock_eq
        rw [hlock] at ht' hu' ⊢
        exact Lock.ordered_moved (h.behind hold hc) hs.lock.nodup ht' hu'
      · cases hb
      · have hqueue : (s₁.moveTask u job (.register l c)).lock.queue = s.lock.queue ++ [u] := by
          simp only [moveTask, hw.frame.1, hw.of_registered.1]
          rfl
        rw [hqueue]
        have hfirst : [t].Sublist s.lock.queue :=
          List.singleton_sublist.mpr (hs.queued_of_closing h.closing)
        exact hfirst.append (.refl [u])
  rcases ht.task hs hjob rfl with ⟨hsame, -⟩ | ⟨s₁, job', hw, rfl⟩
  · exact .inl (fenced ⟨_, _, _, hsame⟩)
  · have hnew := hw.moved_job hjob
    cases hw.dismisses with
    | close => exact .inl (fenced ⟨_, _, _, hnew⟩)
    | empty | crash => exact .inr ⟨_, hnew, rfl⟩

theorem run (hreach : Reachable behaviour q) (hclosing : q.IsClosing t)
    (run : Run behaviour q r) :
    r.Fenced t q.connections.length ∨ ∃ job, r.tasks[t]? = some job ∧ job.isOver = true := by
  -- By induction on the run, up to the end of the shutdown and past it.
  induction run with
  | refl => exact .inl ((sound_of_reachable hreach).fenced hclosing)
  | @tail s s' run hn ih =>
    obtain ⟨a, hs⟩ := hn
    have hreach' := Run.reachable run hreach
    have hsound := sound_of_reachable hreach'
    have hturn := hsound.turn_of_step hs
    rcases ih with hfenced | ⟨job, ht, hover⟩
    · exact hfenced.turn hsound (trailed_of_reachable hreach') hturn
    · rcases hturn.task hsound ht (Job.not_reaper_of_over hover) with ⟨hsame, -⟩ | ⟨_, _, hw, -⟩
      · exact .inr ⟨job, hsame, hover⟩
      · exact absurd hw.not_over (by simp [hover])

end Fenced

inductive ShutsDown (s : Server) (t : Nat) (s' : Server) (c : Nat) : Prop
  | closes {listener : Option Nat} {first : Option ServerError} {place call : Nat}
      (ht : s'.tasks[t]? = some (.closeAll listener first (some (place, call))))
      (hp : s'.registry[place]? = some c)
  | removes (hc : c ∈ s.registry) (hc' : c ∉ s'.registry)

def AdmittedUnder (behaviour : Behaviour) (s : Server) (l c : Nat) (s' : Server) : Prop :=
  ∃ (r r' : Server) (a : Action) (u : Nat), Run behaviour s r ∧ r.tasks[u]? = some (.register l c) ∧
    r.step behaviour a = some r' ∧ r'.tasks[u]? = some (.done (.accepted c)) ∧ Run behaviour r' s'

/-- From here on the shutdown lets alone what comes in after it, and so all of a later listener. -/
def Spares (behaviour : Behaviour) (q : Server) (t : Nat) : Prop :=
  ∀ r r' c, Run behaviour q r → r.step behaviour (.resume t) = some r' → r.ShutsDown t r' c →
    c < q.connections.length ∧ ∀ l, AdmittedUnder behaviour q l c r → l < q.listeners.length

theorem AdmittedUnder.later (hreach : Reachable behaviour q)
    (h : AdmittedUnder behaviour q l c r) (hl : q.listeners.length ≤ l) :
    q.connections.length ≤ c := by
  obtain ⟨r₁, r₂, a, u, run, hu, -⟩ := h
  exact (Later.run hreach run).2 hu hl

theorem spares_of_closing (hreach : Reachable behaviour q) (hclosing : q.IsClosing t) :
    Spares behaviour q t := by
  intro r r' c run hs hshuts
  have hsound := sound_of_reachable (run.reachable hreach)
  simp only [step, present_of_step hs] at hs
  obtain ⟨job, r₁, job', ht, hw, rfl⟩ := works_resume hsound hs
  have hc : c < q.connections.length := by
    rcases Fenced.run hreach hclosing run with hfenced | ⟨ended, hended, hover⟩
    · cases hshuts with
      | closes ht' hp =>
        obtain rfl := Option.some.inj ((hw.moved_job ht).symm.trans ht')
        obtain ⟨-, -, -, -, -, hreg⟩ := hw.of_closing
        exact hfenced.registered c (hreg ▸ List.mem_of_getElem? hp)
      | removes hc => exact hfenced.registered c hc
    · obtain rfl := Option.some.inj (ht.symm.trans hended)
      exact absurd hw.not_over (by simp [hover])
  refine ⟨hc, fun l hadmitted => ?_⟩
  exact Nat.lt_of_not_le fun hl => Nat.not_lt.mpr (hadmitted.later hreach hl) hc

theorem begins_of_step {request : Request}
    (h : s.step behaviour (.begin request) = some s') :
    ∃ s₁ job, Begins s request s₁ job ∧ s' = s₁.enterTask job := by
  unfold step at h
  split at h
  · exact absurd h nofun
  · dsimp only at h
    split at h
    · exact absurd h nofun
    · exact begins_of_begin h

theorem queued_shutdown_spares_restart (behaviour : Behaviour) {s s₁ : Server}
    (reachable : Reachable behaviour s) (begun : s.step behaviour (.begin .shutdown) = some s₁) :
    s₁.listeners.length = s.listeners.length ∧
      (s.reaper = none → Spares behaviour s₁ s.tasks.length) ∧
      ∀ q, Run behaviour s₁ q → q.IsClosing s.tasks.length → Spares behaviour q s.tasks.length := by
  have hreach₁ : Reachable behaviour s₁ := .step _ reachable begun
  have hafter {q : Server} (run : Run behaviour s₁ q) (hclosing : q.IsClosing s.tasks.length) :
      Spares behaviour q s.tasks.length := spares_of_closing (run.reachable hreach₁) hclosing
  obtain ⟨s₀, job, hb, rfl⟩ := begins_of_step begun
  refine ⟨hb.listeners_length, fun hreaper => ?_, fun q => hafter⟩
  refine hafter .refl ?_
  cases hb with
  | stopReaper hr => exact absurd (hr.symm.trans hreaper) nofun
  | closeAll =>
    refine ⟨_, _, _, getElem?_concat_eq_some.mpr (.inl ⟨?_, rfl⟩)⟩
    rw [(unlisten_frame s).2.2.2.2.1]

def occupying : List Action :=
  opening ++ [.resume 0, .begin (.broadcast [7]), .resume 1, .on 0 (.obtainWriter 1)]

def occupied : Server :=
  (steps? quietObservers occupying { config := {} }).getD { config := {} }

def restarting : List Action :=
  [.start 65124 false (.ok address), .begin (.accept 0), .connect 1 (visitorOn 10), .acceptPeer 3,
    .on 0 (.writeExpired 1), .resume 1, .resume 2, .on 0 (.obtainClosing 2),
    .on 0 (.halt 2 .halted), .on 0 .look, .on 0 (.finishClose 2)]

def restarted : Server :=
  (steps? quietObservers restarting occupied.beginShutdown).getD occupied

theorem queued_shutdown_spares_second_visitor :
    Reachable quietObservers occupied ∧ occupied.reaper = none ∧
      occupied.step quietObservers (.begin .shutdown) = some occupied.beginShutdown ∧
      Run quietObservers occupied.beginShutdown restarted ∧
      ∃ s, restarted.step quietObservers (.resume 2) = some s ∧ s.registry = [] ∧
        s.tasks[3]? = some (.register 1 1) ∧ ¬ restarted.ShutsDown 2 s 1 := by
  have reachable : Reachable quietObservers occupied := reachable_of_steps occupying (.new {}) rfl
  have begun : occupied.step quietObservers (.begin .shutdown) = some occupied.beginShutdown := rfl
  have run : Run quietObservers occupied.beginShutdown restarted := run_of_steps restarting rfl
  have spares := (queued_shutdown_spares_restart quietObservers reachable begun).2.1 rfl
  refine ⟨reachable, rfl, begun, run, _, rfl, rfl, rfl, fun hshuts => ?_⟩
  exact absurd (spares _ _ 1 run rfl hshuts).1 (Nat.lt_irrefl 1)

/-- Behind the broadcast the reaper waits for the registry, and the shutdown for the reaper. -/
def stalling : List Action :=
  [.start 65123 true (.ok address), .resume 0, .resume 0, .connect 0 visitor, .begin (.accept 0),
    .acceptPeer 1, .resume 1, .begin (.broadcast [7]), .resume 2, .on 0 (.obtainWriter 1),
    .pass 3000, .resume 0]

def stalled : Server :=
  (steps? quietObservers stalling { config := {} }).getD { config := {} }

def readmitting : List Action :=
  [.start 65124 false (.ok address), .connect 1 (visitorOn 10), .begin (.accept 0), .acceptPeer 4,
    .pass 8000, .on 0 (.writeExpired 1), .resume 2, .resume 0]

def readmitted : Server :=
  (steps? quietObservers readmitting stalled.beginShutdown).getD stalled

def enlisted : Server :=
  (readmitted.step quietObservers (.resume 4)).getD stalled

def overreaching : List Action :=
  [.resume 0, .resume 3, .resume 3, .on 0 (.obtainClosing 2), .on 0 (.halt 2 .halted),
    .on 0 .look, .on 0 (.finishClose 2)]

def overreached : Server :=
  (steps? quietObservers overreaching enlisted).getD stalled

def overclosing : List Action :=
  [.on 1 (.obtainClosing 1), .on 1 (.halt 1 .halted), .on 1 .look, .on 1 (.finishClose 1),
    .resume 3]

def emptied : Server :=
  (steps? quietObservers (.resume 3 :: overclosing) overreached).getD stalled

theorem restart_is_shut_down :
    Reachable quietObservers stalled ∧ stalled.isListening = true ∧
      stalled.step quietObservers (.begin .shutdown) = some stalled.beginShutdown ∧
      stalled.listeners.length = 1 ∧
      AdmittedUnder quietObservers stalled.beginShutdown 1 1 overreached ∧
      ∃ s, overreached.step quietObservers (.resume stalled.tasks.length) = some s ∧
        overreached.ShutsDown stalled.tasks.length s 1 ∧
        ∃ s', Run quietObservers s s' ∧ s'.isListening = true ∧ s'.registry = [] ∧
          s'.isConnected 1 = false := by
  have reachable : Reachable quietObservers stalled :=
    reachable_of_steps stalling (.new {}) rfl
  have before : Run quietObservers stalled.beginShutdown readmitted :=
    run_of_steps readmitting rfl
  have after : Run quietObservers enlisted overreached := run_of_steps overreaching rfl
  exact ⟨reachable, rfl, rfl, rfl,
    ⟨readmitted, enlisted, .resume 4, 4, before, rfl, rfl, rfl, after⟩, _, rfl, .closes rfl rfl,
    emptied, run_of_steps overclosing rfl, rfl, rfl, rfl⟩

end Server

end Fanout
