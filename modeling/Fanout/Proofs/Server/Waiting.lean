import Fanout.Proofs.Server.Attendance
import Fanout.Proofs.Server.Progress

namespace Fanout.Server

variable {behaviour : Behaviour} {s s' : Server} {t u r c call : Nat} {job : Job}
  {x : Connection} {p q : Actor}

inductive WaitsFor (s : Server) : Actor → Actor → Prop
  | registry {t u : Nat} {job : Job} (ht : s.tasks[t]? = some job) (hj : job.standing = .waiting)
      (held : s.lock.isHeldBy u = true) (hu : u ≠ t) : WaitsFor s (.task t) (.task u)
  | call {p q : Actor} (h : CallWaits s.connections s.awaits p q) : WaitsFor s p q
  | reaper {t r : Nat} {listener : Option Nat} {job : Job}
      (ht : s.tasks[t]? = some (.stopReaper listener r)) (hr : s.tasks[r]? = some job)
      (hj : job.isOver = false) : WaitsFor s (.task t) (.task r)

def IsActive (s : Server) : Actor → Prop
  | .task t => s.isAborted = false ∧ ∃ job, s.tasks[t]? = some job ∧ job.isOver = false
  | .receiver c => s.isAborted = false ∧ ∃ x, s.connections[c]? = some x ∧ x.isReceiving = true

theorem IsActive.present (h : s.IsActive p) : s.isAborted = false := by
  cases p <;> exact h.1

inductive WaitsOutside (s : Server) : Actor → Prop
  | accept {t secs l : Nat} {deadline : Option Nat}
      (ht : s.tasks[t]? = some (.accept secs deadline l)) : WaitsOutside s (.task t)
  | write {t : Nat} (hw : Writes s.connections s.awaits t) : WaitsOutside s (.task t)
  | sleep {t next : Nat} (ht : s.tasks[t]? = some (.reaper false next none)) (hn : s.now < next) :
      WaitsOutside s (.task t)

def Free (behaviour : Behaviour) (s : Server) : Actor → Prop :=
  Moves (fun t => s.step behaviour (.resume t)) (fun c a => s.step behaviour (.on c a)) s.awaits

def scene (behaviour : Behaviour) (s : Server) : Scene where
  WaitsFor := s.WaitsFor
  Active := s.IsActive
  Moves := s.Free behaviour
  Outside := s.WaitsOutside

/-- A shutdown waits for the reaper, the reaper like all others for the registry, and whoever has
the registry for a call at most. -/
def taskRank (s : Server) (t : Nat) : Nat :=
  match s.tasks[t]? with
  | some (.stopReaper _ _) => 5
  | some job =>
      if job.standing = .waiting then if s.lock.isHeldBy t then 0 else 4
      else awaitedRank s.connections (s.awaited? job)
  | none => 0

def rank (s : Server) : Actor → Nat
  | .task t => s.taskRank t
  | .receiver _ => 0

theorem taskRank_of_awaits (ht : s.awaits t = some (c, call)) :
    s.taskRank t = awaitedRank s.connections (some (c, call)) := by
  obtain ⟨job, hjob, ha⟩ := Option.bind_eq_some_iff.mp ht
  have hj := standing_of_awaited ha
  unfold taskRank
  rw [hjob]
  split
  · rename_i heq
    obtain rfl := Option.some.inj heq
    simp [awaited?] at ha
  · rename_i heq
    obtain rfl := Option.some.inj heq
    rw [if_neg hj, ha]
  · rename_i heq
    simp at heq

theorem taskRank_le_of_not_stopping (ht : s.tasks[t]? = some job)
    (hj : ∀ listener r, job ≠ .stopReaper listener r) : s.taskRank t ≤ 4 := by
  unfold taskRank
  rw [ht]
  split
  · rename_i heq
    exact absurd (Option.some.inj heq) (hj _ _)
  · split
    · split <;> omega
    · exact Nat.le_succ_of_le (awaitedRank_le _ _)
  · omega

theorem Sound.holder (h : s.Sound) (held : s.lock.isHeldBy u = true) :
    ∃ job, s.tasks[u]? = some job ∧ job.standing ≠ .outside :=
  h.lock.holder held

theorem Sound.taskRank_holder (h : s.Sound) (held : s.lock.isHeldBy u = true) :
    s.taskRank u ≤ 3 := by
  obtain ⟨job, hu, hj⟩ := h.holder held
  unfold taskRank
  rw [hu]
  split
  · rename_i heq
    obtain rfl := Option.some.inj heq
    exact absurd rfl hj
  · rw [held]
    split
    · simp
    · exact awaitedRank_le _ _
  · omega

theorem Sound.rank_lt (h : s.Sound) (hm : s.Manned) (hw : s.WaitsFor p q) :
    s.rank q < s.rank p := by
  cases hw with
  | @registry t u job ht hj held hu =>
    have hnot : s.lock.isHeldBy t = false :=
      Bool.eq_false_iff.mpr fun hheld => hu (Lock.isHeldBy_unique held hheld)
    have hrank : s.taskRank t = 4 := by
      unfold taskRank
      rw [ht]
      split
      · rename_i heq
        obtain rfl := Option.some.inj heq
        simp [Job.standing] at hj
      · rename_i heq
        obtain rfl := Option.some.inj heq
        simp [hj, hnot]
      · rename_i heq
        simp at heq
    have := h.taskRank_holder held
    simp only [rank]
    omega
  | call hcall =>
    have hlt := hcall.rank_lt h.connections
    cases hcall with
    | call ht _ _ hu =>
      simpa only [rank, taskRank_of_awaits ht, taskRank_of_awaits hu, callerRank, ht, hu] using hlt
    | receiver ht => simpa only [rank, taskRank_of_awaits ht, callerRank, ht] using hlt
  | @reaper t r listener job ht hr hj =>
    have hrank : s.taskRank t = 5 := by
      unfold taskRank
      rw [ht]
    have hle : s.taskRank r ≤ 4 := by
      refine taskRank_le_of_not_stopping hr fun l' r' heq => ?_
      obtain ⟨job', hr', hj'⟩ := hm.stopping ht
      obtain rfl := Option.some.inj (hr.symm.trans hr')
      simp [heq, Job.isReaper, Job.isOver] at hj'
    simp only [rank]
    omega

theorem not_over_of_standing (hj : job.standing ≠ .outside) : job.isOver = false := by
  cases job with
  | done => exact absurd rfl hj
  | crashed => exact absurd rfl hj
  | _ => rfl

theorem not_over_of_awaited (ha : s.awaited? job = some (c, call)) : job.isOver = false := by
  cases job with
  | done => simp [awaited?] at ha
  | crashed => simp [awaited?] at ha
  | _ => rfl

theorem Sound.waited_for_active (h : s.Sound) (hp : s.IsActive p) (hw : s.WaitsFor p q) :
    s.IsActive q := by
  have present := hp.present
  cases hw with
  | registry _ _ held =>
    obtain ⟨job, hu, hj⟩ := h.holder held
    exact ⟨present, job, hu, not_over_of_standing hj⟩
  | call hcall =>
    cases hcall with
    | call _ _ _ hu =>
      obtain ⟨job, hjob, ha⟩ := Option.bind_eq_some_iff.mp hu
      exact ⟨present, job, hjob, not_over_of_awaited ha⟩
    | receiver _ hx hawaits =>
      exact ⟨present, _, hx, ((h.connections hx).receiving_of_awaited hawaits).1⟩
  | reaper _ hr hj => exact ⟨present, _, hr, hj⟩

theorem free_of_resume (present : s.isAborted = false) (h : (s.resume t).isSome = true) :
    s.Free behaviour (.task t) := by
  obtain ⟨s', hs'⟩ := Option.isSome_iff_exists.mp h
  have hstep : s.step behaviour (.resume t) = some s' := by simp [step, present, hs']
  exact .resume hstep

theorem step_of_goes (present : s.isAborted = false) {a : Connection.Action}
    (hx : s.connections[c]? = some x) (ha : a.isCall = false) (hgoes : x.Goes a) :
    ∃ s', s.step behaviour (.on c a) = some s' := by
  obtain ⟨⟨x', feed⟩, hs⟩ := hgoes (ServerFeed.tell behaviour c) s.feed
  exact ⟨{ s.setConnection c x' with feed }, by simp [step, present, ha, actOn, hx, hs]⟩

theorem receiver_free (h : s.IsActive (.receiver c)) : s.Free behaviour (.receiver c) := by
  obtain ⟨present, x, hx, hr⟩ := h
  exact receiver_moves (step_of_goes present) hx hr

theorem Sound.caller_free (h : s.Sound) (hm : s.Manned) (present : s.isAborted = false)
    (ht : s.awaits t = some (c, call)) :
    (∃ q, s.WaitsFor (.task t) q) ∨ s.Free behaviour (.task t) ∨ s.WaitsOutside (.task t) := by
  obtain ⟨job, hjob, ha⟩ := Option.bind_eq_some_iff.mp ht
  have ended {x : Connection} {ending : CallEnd} (hx : s.connections[c]? = some x)
      (he : x.ending? call = some ending) : ∃ s', s.step behaviour (.resume t) = some s' := by
    obtain ⟨s', hs⟩ := Option.isSome_iff_exists.mp (h.caller_goes_on hjob ha hx he)
    exact ⟨s', by simp [step, present, hs]⟩
  have prospect : (∃ q, CallWaits s.connections s.awaits (.task t) q) ∨
      s.Free behaviour (.task t) ∨ Writes s.connections s.awaits t :=
    hm.attended.caller_free (step_of_goes present) h.connections ht ended
  rcases prospect with ⟨q, hq⟩ | hfree | hwrites
  · exact .inl ⟨q, .call hq⟩
  · exact .inr (.inl hfree)
  · exact .inr (.inr (.write hwrites))

theorem Sound.queued_free (h : s.Sound) (present : s.isAborted = false)
    (ht : s.tasks[t]? = some job) (hj : job.standing = .waiting) :
    (∃ q, s.WaitsFor (.task t) q) ∨ s.Free behaviour (.task t) ∨ s.WaitsOutside (.task t) := by
  obtain ⟨u, held⟩ := h.lock.exists_holder ht (by simp [hj])
  by_cases hu : u = t
  · exact .inr (.inl (free_of_resume present (h.holder_goes_on ht hj (hu ▸ held))))
  · exact .inl ⟨.task u, .registry ht hj held hu⟩

theorem reaper_free (present : s.isAborted = false) {cancelled : Bool} {next : Nat}
    (ht : s.tasks[t]? = some (.reaper cancelled next none)) :
    s.Free behaviour (.task t) ∨ s.WaitsOutside (.task t) := by
  cases cancelled with
  | true => exact .inl (free_of_resume present (by simp [resume, ht, awaited?, proceed, tick]))
  | false =>
    by_cases hn : next ≤ s.now
    · exact .inl (free_of_resume present (by simp [resume, ht, awaited?, proceed, tick, hn]))
    · exact .inr (.sleep ht (by omega))

theorem Manned.shutdown_free (hm : s.Manned) (present : s.isAborted = false)
    {listener : Option Nat} (ht : s.tasks[t]? = some (.stopReaper listener r)) :
    (∃ q, s.WaitsFor (.task t) q) ∨ s.Free behaviour (.task t) ∨ s.WaitsOutside (.task t) := by
  obtain ⟨job, hr, -⟩ := hm.stopping ht
  cases hj : job.isOver with
  | false => exact .inl ⟨.task r, .reaper ht hr hj⟩
  | true =>
    refine .inr (.inl (free_of_resume present ?_))
    match job with
    | .done _ => simp [resume, ht, awaited?, proceed, hr]
    | .crashed => simp [resume, ht, awaited?, proceed, hr]

theorem Sound.task_free (h : s.Sound) (hm : s.Manned) (hp : s.IsActive (.task t)) :
    (∃ q, s.WaitsFor (.task t) q) ∨ s.Free behaviour (.task t) ∨ s.WaitsOutside (.task t) := by
  obtain ⟨present, job, ht, hj⟩ := hp
  cases ha : s.awaits t with
  | some call => exact h.caller_free hm present ha
  | none =>
    have hnone : s.awaited? job = none := Option.bind_eq_none_iff.mp ha job ht
    by_cases hwaiting : job.standing = .waiting
    · exact h.queued_free present ht hwaiting
    · match job, h.fits ht with
      | .accept .., _ => exact .inr (.inr (.accept ht))
      | .reaper cancelled next none, _ => exact .inr (reaper_free present ht)
      | .stopReaper listener r, _ => exact hm.shutdown_free present ht
      | .broadcast _ (some (place, _)), ⟨c, hp⟩ => simp [awaited?, hp] at hnone
      | .reap _ (some (place, _)), ⟨c, _, _, hp, _⟩ => simp [awaited?, hp] at hnone
      | .reaper _ _ (some (_, some (place, _))), ⟨c, _, _, hp, _⟩ => simp [awaited?, hp] at hnone
      | .closeAll _ _ (some (place, _)), ⟨⟨c, _, _, hp, _⟩, _⟩ => simp [awaited?, hp] at hnone
      | .refuse .., _ | .sendTo _ _ (some _), _ | .send .., _ | .close .., _ =>
        simp [awaited?] at hnone
      | .register .., _ | .broadcast _ none, _ | .sendTo _ _ none, _ | .reap _ none, _
      | .reaper _ _ (some (_, none)), _ | .closeAll _ _ none, _ | .count, _ | .list, _ =>
        simp [Job.standing] at hwaiting
      | .done _, _ | .crashed, _ => simp [Job.isOver] at hj

theorem Sound.ranked (h : s.Sound) (hm : s.Manned) : (s.scene behaviour).Ranked s.rank where
  falls := h.rank_lt hm
  active := h.waited_for_active
  free {p} hp := by
    cases p with
    | task t => exact h.task_free hm hp
    | receiver c => exact .inr (.inl (receiver_free hp))

theorem deadlockFree_of_reachable (h : Reachable behaviour s) :
    (s.scene behaviour).DeadlockFree := by
  refine ((sound_of_reachable h).ranked (manned_of_reachable h)).deadlockFree ?_
  intro c hc
  refine ⟨?_, receiver_free hc⟩
  intro q hq
  cases hq with
  | call hcall => cases hcall

end Fanout.Server
