import Fanout.Proofs.Server.Run

namespace Fanout

/-- The job of a task after a step of somebody else: nothing but a reaper is ever told to stop. -/
inductive Job.Kept : Job → Job → Prop
  | same (job : Job) : Kept job job
  | cancelled (cancelled : Bool) (next : Nat) (sweep : Option (Nat × Option (Nat × Nat))) :
      Kept (.reaper cancelled next sweep) (.reaper true next sweep)

theorem Job.Kept.eq {job job' : Job} (h : job.Kept job') (hj : job.isReaper = false) :
    job' = job := by
  cases h with
  | same => rfl
  | cancelled => cases hj

namespace Server

variable {behaviour : Behaviour} {s s' s₁ : Server} {t u c call : Nat} {job job' : Job} {a : Action}
  {x x' : Connection}

theorem Work.uncrashed (hw : Work s t job s₁ job') : job ≠ .crashed := by
  cases hw with
  | sweepNext sweeper | sweepEnd sweeper => cases sweeper <;> simp [Sweeper.job]
  | crash ha =>
    rintro rfl
    simp [awaited?] at ha
  | _ => simp

theorem Work.not_over (hw : Work s t job s₁ job') : job.isOver = false := by
  cases job with
  | done reply => exact absurd rfl hw.undone
  | crashed => exact absurd rfl hw.uncrashed
  | _ => rfl

theorem drop_kept (hj : job.isReaper = false) :
    s.drop.tasks[u]? = some job ↔ s.tasks[u]? = some job := by
  rw [drop_eq, ← (dropListener_frame s).2.2.2.2]
  cases s.reaper with
  | none => rfl
  | some r => exact cancelReaper_kept hj r

theorem Begins.kept {r : Request} (hb : Begins s r s₁ job') (hj : job.isReaper = false) :
    s₁.tasks[u]? = some job ↔ s.tasks[u]? = some job := by
  have hun : s.unlisten.tasks = s.tasks := (unlisten_frame s).2.2.2.2.1
  cases hb with
  | stopReaper => exact hun ▸ cancelReaper_kept hj _
  | closeAll => rw [hun]
  | _ => rfl

theorem Begins.frame {r : Request} (hb : Begins s r s₁ job') :
    s₁.registry = s.registry ∧ s₁.lock = s.lock ∧ s₁.tasks.length = s.tasks.length := by
  obtain ⟨-, hreg, -, hlock, htasks, -⟩ := unlisten_frame s
  cases hb with
  | @stopReaper r =>
    obtain ⟨-, hreg', -, hlock', -⟩ := cancelReaper_frame s.unlisten r
    refine ⟨hreg'.trans hreg, hlock'.trans hlock, ?_⟩
    rcases cancelReaper_cases s.unlisten r with heq | ⟨_, _, _, -, heq⟩
    · simp only [heq, htasks]
    · simp only [heq, setTask, List.length_set, htasks]
  | closeAll => exact ⟨hreg, hlock, by rw [htasks]⟩
  | _ => exact ⟨rfl, rfl, rfl⟩

theorem kept_cancelReaper (hu : s.tasks[u]? = some job) (r : Nat) :
    ∃ job', (s.cancelReaper r).tasks[u]? = some job' ∧ job.Kept job' := by
  rcases cancelReaper_cases s r with heq | ⟨cancelled, next, sweep, hr, heq⟩
  · rw [heq]
    exact ⟨job, hu, .same job⟩
  · rw [heq]
    by_cases hur : u = r
    · subst hur
      obtain rfl := Option.some.inj (hu.symm.trans hr)
      exact ⟨_, (getElem?_set_eq_some hr).mpr (.inl ⟨rfl, rfl⟩), .cancelled cancelled next sweep⟩
    · exact ⟨job, (getElem?_set_eq_some hr).mpr (.inr ⟨hur, hu⟩), .same job⟩

theorem kept_drop (hu : s.tasks[u]? = some job) :
    ∃ job', s.drop.tasks[u]? = some job' ∧ job.Kept job' := by
  rw [drop_eq]
  have hu' : s.dropListener.tasks[u]? = some job := (dropListener_frame s).2.2.2.2 ▸ hu
  cases s.reaper with
  | none => exact ⟨job, hu', .same job⟩
  | some r => exact kept_cancelReaper hu' r

theorem Begins.kept_job {r : Request} (hb : Begins s r s₁ job') (hu : s.tasks[u]? = some job) :
    ∃ job'', s₁.tasks[u]? = some job'' ∧ job.Kept job'' := by
  have hun : s.unlisten.tasks[u]? = some job := (unlisten_frame s).2.2.2.2.1 ▸ hu
  cases hb with
  | stopReaper => exact kept_cancelReaper hun _
  | closeAll => exact ⟨job, hun, .same job⟩
  | _ => exact ⟨job, hu, .same job⟩

/-- A task goes on with its own work, or somebody else takes a step, who can at most cancel it, and
who leaves the registry alone as long as the task holds it. -/
theorem Turn.task_onward (h : s.Sound) (ht : Turn behaviour s a s') (hu : s.tasks[u]? = some job) :
    (∃ job', s'.tasks[u]? = some job' ∧ job.Kept job' ∧
        (s.lock.isHeldBy u = true → s'.registry = s.registry ∧ s'.lock.isHeldBy u = true)) ∨
      a.task? = some u ∧ ∃ s₁ job', Work s u job s₁ job' ∧ s' = s₁.moveTask u job job' := by
  obtain ⟨hlt, -⟩ := List.getElem?_eq_some_iff.mp hu
  have spawned (address : SocketAddress) : (s.opened address).spawnReaper.tasks[u]? = some job :=
    getElem?_concat_eq_some.mpr (.inr hu)
  cases ht with
  | start | rest | subscribe | connect | pass | on =>
    exact .inl ⟨job, hu, .same job, fun held => ⟨rfl, held⟩⟩
  | startReaping address =>
    exact .inl ⟨job, spawned address, .same job, fun held => ⟨rfl, held⟩⟩
  | replaceReaper address =>
    obtain ⟨-, hreg, -, hlock, -⟩ := cancelReaper_frame (s.opened address).spawnReaper _
    obtain ⟨job', hu', hkept⟩ := kept_cancelReaper (spawned address) _
    exact .inl ⟨job', hu', hkept, fun held => ⟨hreg, hlock ▸ held⟩⟩
  | begin _ hb =>
    obtain ⟨hreg, hlock, hlen⟩ := hb.frame
    obtain ⟨job', hu', hkept⟩ := hb.kept_job hu
    refine .inl ⟨job', getElem?_concat_eq_some.mpr (.inr hu'), hkept, fun held => ⟨hreg, ?_⟩⟩
    simp only [enterTask, hlock, hlen]
    exact Lock.isHeldBy_moved held (Nat.ne_of_lt hlt)
  | drop =>
    obtain ⟨-, hreg, -, hlock, -⟩ := drop_frame s
    obtain ⟨job', hu', hkept⟩ := kept_drop hu
    exact .inl ⟨job', hu', hkept, fun held => ⟨hreg, hlock ▸ held⟩⟩
  | @work t _ ha hw =>
    obtain ⟨other, s₁, other', ht, hw, rfl⟩ := hw
    by_cases hut : u = t
    · subst hut
      obtain rfl := Option.some.inj (hu.symm.trans ht)
      exact .inr ⟨ha, s₁, other', hw, rfl⟩
    · refine .inl ⟨job, (hw.tasks_iff ht).mpr (.inr ⟨hut, hu⟩), .same job, fun held => ⟨?_, ?_⟩⟩
      · refine (hw.extension h ht).registry.resolve_right fun held' => hut ?_
        exact Lock.isHeldBy_unique held held'
      · simp only [moveTask, hw.frame.1]
        exact Lock.isHeldBy_moved held hut

theorem Turn.task (h : s.Sound) (ht : Turn behaviour s a s') (hu : s.tasks[u]? = some job)
    (hj : job.isReaper = false) :
    (s'.tasks[u]? = some job ∧
        (s.lock.isHeldBy u = true → s'.registry = s.registry ∧ s'.lock.isHeldBy u = true)) ∨
      ∃ s₁ job', Work s u job s₁ job' ∧ s' = s₁.moveTask u job job' := by
  rcases ht.task_onward h hu with ⟨job', hu', hkept, hheld⟩ | ⟨-, hwork⟩
  · obtain rfl := hkept.eq hj
    exact .inl ⟨hu', hheld⟩
  · exact .inr hwork

theorem Turn.kept (h : s.Sound) (ht : Turn behaviour s a s') (ha : a.task? ≠ some u)
    (hu : s.tasks[u]? = some job) :
    ∃ job', s'.tasks[u]? = some job' ∧ job.Kept job' ∧
      (s.lock.isHeldBy u = true → s'.registry = s.registry ∧ s'.lock.isHeldBy u = true) :=
  (ht.task_onward h hu).resolve_right fun hown => ha hown.1

inductive Steps (behaviour : Behaviour) (s : Server) (c : Nat) (x x' : Connection) : Prop
  | same (h : x' = x)
  | call {a : Connection.Action} (ht : Connection.Turn x a x') (ha : a.isCall = true)
  | act {a : Connection.Action} {feed : ServerFeed} (ha : a.isCall = false)
      (hs : x.step (ServerFeed.tell behaviour c) a s.feed = some (x', feed))

inductive Changes (behaviour : Behaviour) (s : Server) : List Connection → Prop
  | same : Changes behaviour s s.connections
  | set {c : Nat} {x x' : Connection} (hx : s.connections[c]? = some x)
      (hs : Steps behaviour s c x x') : Changes behaviour s (s.connections.set c x')
  | fresh {x : Connection} (hx : x.Unheard) : Changes behaviour s (s.connections ++ [x])

theorem Work.changes (hw : Work s t job s₁ job') : Changes behaviour s s₁.connections := by
  cases hw with
  | acceptPeer _ opened => exact .fresh (Connection.unheard_ofStream opened)
  | enlist _ _ hx => exact .set hx (.call (Connection.turn_listen _) rfl)
  | refuse _ _ hx | closeNext _ _ hx => exact .set hx (.call .close rfl)
  | broadcastNext _ _ hx | findHost _ _ hx => exact .set hx (.call (.send _) rfl)
  | sweepNext _ _ hs _ hx => cases hs <;> exact .set hx (.call .close rfl)
  | sweepEnd _ _ hs => cases hs <;> exact .same
  | @closeEnd listener => cases listener <;> exact .same
  | _ => exact .same

theorem Begins.changes {r : Request} (hb : Begins s r s₁ job) :
    Changes behaviour s s₁.connections := by
  have hun : s.unlisten.connections = s.connections := (unlisten_frame s).2.2.1
  cases hb with
  | send payload _ hx => exact .set hx (.call (.send payload) rfl)
  | close _ hx => exact .set hx (.call .close rfl)
  | listen _ hx => exact .set hx (.call (Connection.turn_listen _) rfl)
  | @stopReaper r =>
    have hconns := (cancelReaper_frame s.unlisten r).2.2.1.trans hun
    exact hconns ▸ .same
  | closeAll => exact hun ▸ .same
  | _ => exact .same

theorem Turn.changes (ht : Turn behaviour s a s') : Changes behaviour s s'.connections := by
  cases ht with
  | begin ha hb => exact hb.changes
  | work ha hw =>
    obtain ⟨job, s₁, job', -, hw, rfl⟩ := hw
    exact hw.changes
  | drop => exact (drop_frame s).2.2.1 ▸ .same
  | @replaceReaper previous address =>
    exact (cancelReaper_frame (s.opened address).spawnReaper previous).2.2.1 ▸ .same
  | on ha hx hcall hs => exact .set hx (.act hcall hs)
  | _ => exact .same

theorem Changes.onward {connections : List Connection} (h : Changes behaviour s connections)
    (hx : s.connections[c]? = some x) :
    ∃ x', connections[c]? = some x' ∧ Steps behaviour s c x x' := by
  cases h with
  | same => exact ⟨x, hx, .same rfl⟩
  | @set d y y' hy hs =>
    by_cases hcd : c = d
    · subst hcd
      obtain rfl := Option.some.inj (hx.symm.trans hy)
      exact ⟨y', (getElem?_set_eq_some hy).mpr (.inl ⟨rfl, rfl⟩), hs⟩
    · exact ⟨x, (getElem?_set_eq_some hy).mpr (.inr ⟨hcd, hx⟩), .same rfl⟩
  | fresh => exact ⟨x, getElem?_concat_eq_some.mpr (.inr hx), .same rfl⟩

theorem Changes.origin {connections : List Connection} (h : Changes behaviour s connections)
    (hx' : connections[c]? = some x') :
    x'.Unheard ∨ ∃ x, s.connections[c]? = some x ∧ Steps behaviour s c x x' := by
  cases h with
  | same => exact .inr ⟨x', hx', .same rfl⟩
  | set hy hs =>
    rcases (getElem?_set_eq_some hy).mp hx' with ⟨rfl, rfl⟩ | ⟨-, hold⟩
    · exact .inr ⟨_, hy, hs⟩
    · exact .inr ⟨x', hold, .same rfl⟩
  | fresh hx =>
    rcases getElem?_concat_eq_some.mp hx' with ⟨-, rfl⟩ | hold
    · exact .inl hx
    · exact .inr ⟨x', hold, .same rfl⟩

theorem Steps.ending {ending : CallEnd} (h : Steps behaviour s c x x')
    (he : x.ending? call = some ending) : x'.ending? call = some ending := by
  have turned {b : Connection.Action} (ht : Connection.Turn x b x') :
      x'.ending? call = some ending := by
    obtain ⟨old, hold, hend⟩ := Option.bind_eq_some_iff.mp he
    rcases ht.call_onward hold with hsame | ⟨new, -, hm⟩
    · exact Option.bind_eq_some_iff.mpr ⟨old, hsame, hend⟩
    · simp [hm.unended] at hend
  cases h with
  | same h => exact h ▸ he
  | call ht => exact turned ht
  | act _ hs => exact turned (Connection.turn_of_step hs)

theorem Returns.turn {failure : Failure} (h : s.Returns c call failure)
    (ht : Turn behaviour s a s') : s'.Returns c call failure := by
  obtain ⟨x, hx, he⟩ := h
  obtain ⟨x', hx', hsteps⟩ := ht.changes.onward hx
  exact ⟨x', hx', hsteps.ending he⟩

theorem Returns.eq {failure failure' : Failure} (h : s.Returns c call failure)
    (h' : s.Returns c call failure') : failure = failure' := by
  obtain ⟨x, hx, he⟩ := h
  obtain ⟨y, hy, he'⟩ := h'
  obtain rfl := Option.some.inj (hx.symm.trans hy)
  exact CallEnd.returned.inj (Option.some.inj (he.symm.trans he'))

theorem Work.present (hw : Work s t job s₁ job') (present : s.isAborted = false) :
    s₁.isAborted = false := by
  cases hw with
  | acceptPeer _ opened =>
    rw [isAborted_eq_false] at present ⊢
    intro c y hy
    rcases getElem?_concat_eq_some.mp hy with ⟨-, rfl⟩ | hold
    · have hunheard := Connection.unheard_ofStream opened
      rw [(hunheard.receiver (Connection.sound_ofStream opened)).1]
      exact nofun
    · exact present c y hold
  | enlist _ _ hx => exact present_set present hx (Connection.listen_receiver _)
  | refuse _ _ hx | broadcastNext _ _ hx | findHost _ _ hx | closeNext _ _ hx =>
    exact present_set present hx id
  | sweepNext _ _ hs _ hx => cases hs <;> exact present_set present hx id
  | sweepEnd _ _ hs => cases hs <;> exact present
  | @closeEnd listener => cases listener <;> exact present
  | _ => exact present

end Server

end Fanout
