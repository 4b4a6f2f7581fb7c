import Fanout.Proofs.Server.Connections
import Fanout.Proofs.Server.Stopped

namespace Fanout

def Job.isReaping : Job → Bool
  | .reap _ _ => true
  | .reaper _ _ _ => true
  | _ => false

namespace Connection

variable {x x' : Connection} {call : Nat} {failure : Failure}

def HasClosed (x : Connection) : Prop :=
  x.phase = .disconnected ∧
    ∃ (call : Nat) (failure : Failure), x.calls[call]? = some (.close (.done failure))

theorem HasClosed.path (h : x.HasClosed) (hp : Path x x') : x'.HasClosed := by
  refine hp.keeps h ?_
  rintro y y' a ⟨hphase, call, failure, hcall⟩ ht
  refine ⟨ht.disconnected_mono hphase, call, failure, ?_⟩
  rcases ht.call_onward hcall with hsame | ⟨call', -, hm⟩
  · exact hsame
  · exact absurd hm.unended nofun

theorem Sound.hasClosed {p : ClosePoint} (h : x.Sound) (hcall : x.calls[call]? = some (.close p))
    (he : x.ending? call = some (.returned failure)) : x.HasClosed := by
  simp only [ending?, hcall, Option.bind_some] at he
  cases p with
  | done failure' => exact ⟨h.ended hcall rfl, call, failure', hcall⟩
  | _ => cases he

end Connection

namespace Server

variable {behaviour : Behaviour} {s s' s₁ : Server} {t u c call place more : Nat} {job job' : Job}
  {a : Action} {x : Connection} {failure : Failure} {closing : Option (Nat × Nat)}
  {listener : Option Nat} {first : Option ServerError}

def HasClosed (s : Server) (c : Nat) : Prop :=
  ∃ x, s.connections[c]? = some x ∧ x.HasClosed

theorem HasClosed.turn (h : s.HasClosed c) (ht : Turn behaviour s a s') : s'.HasClosed c := by
  obtain ⟨x, hx, hclosed⟩ := h
  obtain ⟨x', hx', hpath⟩ := ht.flows.onward hx
  exact ⟨x', hx', hclosed.path hpath⟩

theorem Sound.hasClosed (h : s.Sound) (hc : s.Closes place call)
    (hp : s.registry[place]? = some c) (hr : s.Returns c call failure) : s.HasClosed c := by
  obtain ⟨c', x, p, hp', hx, hcall⟩ := hc
  obtain rfl := Option.some.inj (hp.symm.trans hp')
  obtain ⟨x', hx', he⟩ := hr
  obtain rfl := Option.some.inj (hx.symm.trans hx')
  exact ⟨x, hx, (h.connections hx).hasClosed hcall he⟩

theorem Turn.task_origin (h : s.Sound) (ht : Turn behaviour s a s')
    (hu : s'.tasks[u]? = some job') (hj : job'.isReaper = false) :
    (s.tasks[u]? = some job' ∧ (s.lock.isHeldBy u = true → s'.registry = s.registry)) ∨
      (∃ r s₁, Begins s r s₁ job') ∨
        ∃ job s₁, a.task? = some u ∧ s.tasks[u]? = some job ∧ Work s u job s₁ job' ∧
          s' = s₁.moveTask u job job' := by
  have unspawned {s₀ : Server} (hu : s₀.spawnReaper.tasks[u]? = some job') :
      s₀.tasks[u]? = some job' := by
    rcases getElem?_concat_eq_some.mp hu with ⟨-, rfl⟩ | hold
    · exact absurd hj nofun
    · exact hold
  cases ht with
  | start | rest | subscribe | connect | pass | on => exact .inl ⟨hu, fun _ => rfl⟩
  | startReaping => exact .inl ⟨unspawned hu, fun _ => rfl⟩
  | replaceReaper address =>
    have hold := (cancelReaper_kept hj _).mp hu
    exact .inl ⟨unspawned hold, fun _ => (cancelReaper_frame _ _).2.1⟩
  | begin _ hb =>
    rcases getElem?_concat_eq_some.mp hu with ⟨-, rfl⟩ | hold
    · exact .inr (.inl ⟨_, _, hb⟩)
    · exact .inl ⟨(hb.kept hj).mp hold, fun _ => hb.frame.1⟩
  | drop => exact .inl ⟨(drop_kept hj).mp hu, fun _ => (drop_frame s).2.1⟩
  | @work t _ ha hw =>
    obtain ⟨job, s₁, job'', ht, hw, rfl⟩ := hw
    rcases (hw.tasks_iff ht).mp hu with ⟨rfl, rfl⟩ | ⟨hut, hold⟩
    · exact .inr (.inr ⟨job, s₁, ha, ht, hw, rfl⟩)
    · refine .inl ⟨hold, fun held => ?_⟩
      refine (hw.extension h ht).registry.resolve_right fun held' => hut ?_
      exact Lock.isHeldBy_unique held held'

theorem Work.of_accepted (hw : Work s t job s₁ (.done (.accepted c))) :
    ∃ l, job = .register l c ∧ s₁.registry = s.registry ++ [c] := by
  generalize hj : Job.done (.accepted c) = job' at hw
  cases hw with
  | enlist =>
    obtain rfl := Reply.accepted.inj (Job.done.inj hj)
    exact ⟨_, rfl, rfl⟩
  | @broadcastFailed _ _ _ d e => exact absurd (Job.done.inj hj) nofun
  | @sentTo _ _ d _ failure => cases failure <;> exact absurd (Job.done.inj hj) nofun
  | @closeEnd _ first _ place failure =>
    cases hfirst : s.closeFailure (place - 1) first failure <;> simp [shutdownReply, hfirst] at hj
  | sweepNext sweeper | sweepEnd sweeper =>
    cases sweeper <;> simp [Sweeper.job, Sweeper.rest] at hj
  | _ => simp at hj

/-- Behind a shutdown all connections have been closed. -/
def Trailed (s : Server) : Prop :=
  ∀ {t place call : Nat} {listener : Option Nat} {first : Option ServerError},
    s.tasks[t]? = some (.closeAll listener first (some (place, call))) →
      ∀ (i c : Nat), i < place → s.registry[i]? = some c → s.HasClosed c

theorem Trailed.behind (h : s.Trailed) (hs : s.Sound)
    (ht : s.tasks[t]? = some (.closeAll listener first closing))
    (ha : s.Arrives t closing place failure) {i : Nat} (hi : i < place)
    (hc : s.registry[i]? = some c) : s.HasClosed c := by
  cases ha with
  | first => exact absurd hi (Nat.not_lt_zero i)
  | @next earlier call c' _ hp hr =>
    by_cases hie : i = earlier
    · subst hie
      obtain rfl := Option.some.inj (hp.symm.trans hc)
      exact hs.hasClosed (hs.fits ht).1 hc hr
    · exact h ht i c (by omega) hc

theorem Work.of_closing (hw : Work s t job s₁ (.closeAll listener first (some (place, call)))) :
    ∃ first' closing failure, job = .closeAll listener first' closing ∧
      s.Arrives t closing place failure ∧ s₁.registry = s.registry := by
  generalize hj : Job.closeAll listener first (some (place, call)) = job' at hw
  cases hw with
  | closeNext ha =>
    obtain ⟨rfl, -, heq⟩ := Job.closeAll.inj hj
    obtain ⟨rfl, -⟩ := Prod.mk.inj (Option.some.inj heq)
    exact ⟨_, _, _, rfl, ha, rfl⟩
  | sweepNext sweeper | sweepEnd sweeper =>
    cases sweeper <;> simp [Sweeper.job, Sweeper.rest] at hj
  | _ => simp at hj

theorem trailed_new (config : ServerConfig) : Trailed { config } := by
  intro t place call listener first ht
  simp at ht

theorem Trailed.turn (h : s.Trailed) (hs : s.Sound) (ht : Turn behaviour s a s') : s'.Trailed := by
  intro u place call listener first hu i c hi hc
  rcases ht.task_origin hs hu rfl with ⟨hold, hreg⟩ | ⟨r, s₁, hb⟩ | ⟨job, s₁, -, hjob, hw, rfl⟩
  · have held := hs.lock.held u (by simp [hold, Job.standing])
    exact (h hold i c hi (hreg held ▸ hc)).turn ht
  · cases hb
  · obtain ⟨first', closing, failure, rfl, ha, hreg⟩ := hw.of_closing
    exact (h.behind hs hjob ha hi (hreg ▸ hc)).turn ht

theorem trailed_of_reachable (h : Reachable behaviour s) : s.Trailed := by
  induction h with
  | new config => exact trailed_new config
  | step a hreach hs ih =>
    have hsound := sound_of_reachable hreach
    intro t place call listener first ht
    exact ih.turn hsound (hsound.turn_of_step hs) ht

def Accepts (s : Server) (a : Action) (s' : Server) (c : Nat) : Prop :=
  ∃ t l, a.task? = some t ∧ s.tasks[t]? = some (.register l c) ∧
    s'.tasks[t]? = some (.done (.accepted c))

def Action.Clears (s : Server) (a : Action) : Prop :=
  ∃ t job, a.task? = some t ∧ s.tasks[t]? = some job ∧
    (job.isReaping = true ∨ job.isShutdown = true)

inductive Amends (s : Server) (a : Action) (s' : Server) : Prop
  | keeps (hr : s'.registry = s.registry)
  | enlists {c : Nat} (ha : s.Accepts a s' c) (hr : s'.registry = s.registry ++ [c])
  | evicts {place c : Nat} (ha : a.Clears s) (hp : s.registry[place]? = some c)
      (hc : s.HasClosed c) (hr : s'.registry = s.registry.eraseIdx place)
  | empties (ha : a.Clears s) (hc : ∀ c ∈ s.registry, s.HasClosed c) (hr : s'.registry = [])

theorem Sweeper.isReaping (sweeper : Sweeper) (evicted : Nat) (closing : Option (Nat × Nat)) :
    (sweeper.job evicted closing).isReaping = true := by
  cases sweeper <;> rfl

theorem Cleared.amends (h : s.Sound) {sweeper : Sweeper} {evicted : Nat} (ha : a.task? = some t)
    (ht : s.tasks[t]? = some (sweeper.job evicted closing)) (hs : s.Cleared t closing s₁ more)
    (hr : s'.registry = s₁.registry) : s.Amends a s' := by
  cases hs with
  | first => exact .keeps hr
  | evict hp hret =>
    exact .evicts ⟨t, _, ha, ht, .inl (sweeper.isReaping _ _)⟩ hp
      (h.hasClosed (h.closes_of_sweep ht) hp hret) hr

theorem Work.amends (h : s.Sound) (htrail : s.Trailed) (ha : a.task? = some t)
    (ht : s.tasks[t]? = some job) (hw : Work s t job s₁ job') :
    s.Amends a (s₁.moveTask t job job') := by
  have hnew := hw.moved_job ht
  cases hw with
  | enlist => exact .enlists ⟨t, _, ha, ht, hnew⟩ rfl
  | sweepNext _ _ hs | sweepEnd _ _ hs => exact hs.amends h ha ht rfl
  | @closeEnd listener _ _ _ _ harr hp =>
    refine .empties ⟨t, _, ha, ht, .inr rfl⟩ ?_ (by cases listener <;> rfl)
    intro c hc
    obtain ⟨i, hi⟩ := List.mem_iff_getElem?.mp hc
    obtain ⟨hlt, -⟩ := List.getElem?_eq_some_iff.mp hi
    have hlen := List.getElem?_eq_none_iff.mp hp
    exact htrail.behind h ht harr (Nat.lt_of_lt_of_le hlt hlen) hi
  | _ => exact .keeps rfl

theorem Turn.amends (h : s.Sound) (htrail : s.Trailed) (ht : Turn behaviour s a s') :
    s.Amends a s' := by
  cases ht with
  | start | startReaping | rest | subscribe | connect | pass | on => exact .keeps rfl
  | replaceReaper => exact .keeps (cancelReaper_frame _ _).2.1
  | begin _ hb => exact .keeps hb.frame.1
  | drop => exact .keeps (drop_frame s).2.1
  | work ha hw =>
    obtain ⟨job, s₁, job', ht, hw, rfl⟩ := hw
    exact hw.amends h htrail ha ht

theorem Turn.given_mono (h : s.Sound) (ht : Turn behaviour s a s') (hg : s.isGiven c = true) :
    s'.isGiven c = true := by
  obtain ⟨u, hu⟩ := isGiven_iff.mp hg
  rcases ht.task h hu rfl with ⟨hsame, -⟩ | ⟨s₁, job', hw, -⟩
  · exact isGiven_iff.mpr ⟨u, hsame⟩
  · exact absurd rfl hw.undone

theorem Turn.given_origin (h : s.Sound) (ht : Turn behaviour s a s') (hg : s'.isGiven c = true) :
    s.isGiven c = true ∨ s.Accepts a s' c := by
  obtain ⟨u, hu⟩ := isGiven_iff.mp hg
  rcases ht.task_origin h hu rfl with ⟨hold, -⟩ | ⟨r, s₁, hb⟩ | ⟨job, s₁, ha, hjob, hw, rfl⟩
  · exact .inl (isGiven_iff.mpr ⟨u, hold⟩)
  · cases hb
  · obtain ⟨l, rfl, -⟩ := hw.of_accepted
    exact .inr ⟨u, l, ha, hjob, hu⟩

theorem Accepts.unique {d : Nat} (h : s.Accepts a s' c) (h' : s.Accepts a s' d) : d = c := by
  obtain ⟨t, l, ha, ht, -⟩ := h
  obtain ⟨u, k, ha', hu, -⟩ := h'
  obtain rfl := Option.some.inj (ha.symm.trans ha')
  exact (Job.register.inj (Option.some.inj (hu.symm.trans ht))).2

theorem Accepts.registry (ha : s.Accepts a s' c) (h : s.Sound) (ht : Turn behaviour s a s') :
    s'.registry = s.registry ++ [c] := by
  obtain ⟨t, l, hact, hjob, hdone⟩ := ha
  rcases ht.task_origin h hdone rfl with ⟨hold, -⟩ | ⟨r, s₁, hb⟩ | ⟨job, s₁, -, -, hw, rfl⟩
  · exact absurd (Option.some.inj (hold.symm.trans hjob)) nofun
  · cases hb
  · obtain ⟨-, -, hreg⟩ := hw.of_accepted
    exact hreg

theorem Accepts.not_given (ha : s.Accepts a s' c) (h : s.Sound) : s.isGiven c = false := by
  obtain ⟨t, l, -, hjob, -⟩ := ha
  exact h.not_given hjob rfl nofun

theorem Accepts.given (ha : s.Accepts a s' c) : s'.isGiven c = true := by
  obtain ⟨t, l, -, -, hdone⟩ := ha
  exact isGiven_iff.mpr ⟨t, hdone⟩

end Server

end Fanout
