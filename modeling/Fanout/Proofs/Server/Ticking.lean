import Fanout.Proofs.Server.Amendment

namespace Fanout.Server

variable {behaviour : Behaviour} {s s' s₁ : Server} {t u r next place call : Nat} {job job' : Job}
  {a : Action} {cancelled : Bool} {sweep : Option (Nat × Option (Nat × Nat))}

theorem cancelReaper_clock (s : Server) (r : Nat) :
    (s.cancelReaper r).config = s.config ∧ (s.cancelReaper r).now = s.now := by
  rcases cancelReaper_cases s r with heq | ⟨_, _, _, -, heq⟩ <;> rw [heq] <;> exact ⟨rfl, rfl⟩

theorem unlisten_clock (s : Server) : s.unlisten.config = s.config ∧ s.unlisten.now = s.now := by
  unfold unlisten
  cases s.listening <;> exact ⟨rfl, rfl⟩

theorem drop_clock (s : Server) : s.drop.config = s.config ∧ s.drop.now = s.now := by
  have hlistener : s.dropListener.config = s.config ∧ s.dropListener.now = s.now := by
    unfold dropListener
    cases s.listening <;> exact ⟨rfl, rfl⟩
  rw [drop_eq]
  cases s.reaper with
  | none => exact hlistener
  | some r =>
    obtain ⟨hconfig, hnow⟩ := cancelReaper_clock s.dropListener r
    exact ⟨hconfig.trans hlistener.1, hnow.trans hlistener.2⟩

theorem Begins.clock {r : Request} (hb : Begins s r s₁ job) :
    s₁.config = s.config ∧ s₁.now = s.now := by
  obtain ⟨hconfig, hnow⟩ := unlisten_clock s
  cases hb with
  | @stopReaper r =>
    obtain ⟨hconfig', hnow'⟩ := cancelReaper_clock s.unlisten r
    exact ⟨hconfig'.trans hconfig, hnow'.trans hnow⟩
  | closeAll => exact ⟨hconfig, hnow⟩
  | _ => exact ⟨rfl, rfl⟩

theorem Work.clock (hw : Work s t job s₁ job') : s₁.config = s.config ∧ s₁.now = s.now := by
  cases hw with
  | sweepNext _ _ hs | sweepEnd _ _ hs => cases hs <;> exact ⟨rfl, rfl⟩
  | @closeEnd listener => cases listener <;> exact ⟨rfl, rfl⟩
  | _ => exact ⟨rfl, rfl⟩

theorem Turn.clock (ht : Turn behaviour s a s') : s'.config = s.config ∧ s.now ≤ s'.now := by
  cases ht with
  | start | startReaping | rest | subscribe | connect | on => exact ⟨rfl, Nat.le_refl _⟩
  | replaceReaper address =>
    obtain ⟨hconfig, hnow⟩ := cancelReaper_clock (s.opened address).spawnReaper _
    exact ⟨hconfig, Nat.le_of_eq hnow.symm⟩
  | begin _ hb => exact ⟨hb.clock.1, Nat.le_of_eq hb.clock.2.symm⟩
  | drop => exact ⟨(drop_clock s).1, Nat.le_of_eq (drop_clock s).2.symm⟩
  | work _ hw =>
    obtain ⟨job, s₁, job', -, hw, rfl⟩ := hw
    exact ⟨hw.clock.1, Nat.le_of_eq hw.clock.2.symm⟩
  | pass => exact ⟨rfl, Nat.le_add_right _ _⟩

theorem period_congr (h : s'.config = s.config) : s'.period = s.period := by
  simp only [period, h]

theorem Begins.running {request : Request} (hb : Begins s request s₁ job)
    (hr : s₁.reaper = some r) : s.reaper = some r ∧ s₁.tasks = s.tasks := by
  cases hb with
  | stopReaper => exact absurd hr nofun
  | closeAll hnone =>
    have hsame : s.unlisten.reaper = s.reaper := (unlisten_frame s).2.2.2.2.2.2
    exact absurd ((hsame.trans hnone).symm.trans hr) nofun
  | _ => exact ⟨hr, rfl⟩

theorem cancelReaper_reaper (hu : s.tasks[u]? = some (.reaper cancelled next sweep)) (hr : r ≠ u) :
    (s.cancelReaper r).tasks[u]? = some (.reaper cancelled next sweep) := by
  rcases cancelReaper_cases s r with heq | ⟨_, _, _, hother, heq⟩
  · rw [heq]
    exact hu
  · rw [heq]
    exact (getElem?_set_eq_some hother).mpr (.inr ⟨hr.symm, hu⟩)

theorem cancelReaper_origin
    (hu : (s.cancelReaper r).tasks[u]? = some (.reaper cancelled next sweep)) :
    ∃ before, s.tasks[u]? = some (.reaper before next sweep) := by
  rcases cancelReaper_cases s r with heq | ⟨_, _, _, hother, heq⟩
  · exact ⟨cancelled, heq ▸ hu⟩
  · rw [heq] at hu
    rcases (getElem?_set_eq_some hother).mp hu with ⟨rfl, hnew⟩ | ⟨-, hold⟩
    · obtain ⟨-, rfl, rfl⟩ := Job.reaper.inj hnew
      exact ⟨_, hother⟩
    · exact ⟨cancelled, hold⟩

theorem Begins.reaper_origin {r : Request} (hb : Begins s r s₁ job)
    (hu : s₁.tasks[u]? = some (.reaper cancelled next sweep)) :
    ∃ before, s.tasks[u]? = some (.reaper before next sweep) := by
  have hun : s.unlisten.tasks = s.tasks := (unlisten_frame s).2.2.2.2.1
  cases hb with
  | stopReaper => exact hun ▸ cancelReaper_origin hu
  | closeAll => exact ⟨cancelled, hun ▸ hu⟩
  | _ => exact ⟨cancelled, hu⟩

theorem Turn.reaper_origin (h : s.Sound) (ht : Turn behaviour s a s')
    (hu : s'.tasks[u]? = some (.reaper cancelled next sweep)) :
    (∃ before, s.tasks[u]? = some (.reaper before next sweep) ∧
        (s.lock.isHeldBy u = true → s'.registry = s.registry)) ∨
      (next = s.now ∧ sweep = none) ∨
        ∃ job s₁, s.tasks[u]? = some job ∧ Work s u job s₁ (.reaper cancelled next sweep) ∧
          s' = s₁.moveTask u job (.reaper cancelled next sweep) := by
  have spawned {before : Bool} {address : SocketAddress}
      (hu : (s.opened address).spawnReaper.tasks[u]? = some (.reaper before next sweep)) :
      (∃ before, s.tasks[u]? = some (.reaper before next sweep)) ∨ next = s.now ∧ sweep = none := by
    rcases getElem?_concat_eq_some.mp hu with ⟨-, hnew⟩ | hold
    · obtain ⟨-, rfl, rfl⟩ := Job.reaper.inj hnew
      exact .inr ⟨rfl, rfl⟩
    · exact .inl ⟨before, hold⟩
  cases ht with
  | start | rest | subscribe | connect | pass | on => exact .inl ⟨cancelled, hu, fun _ => rfl⟩
  | startReaping =>
    rcases spawned hu with ⟨before, hold⟩ | hnew
    · exact .inl ⟨before, hold, fun _ => rfl⟩
    · exact .inr (.inl hnew)
  | replaceReaper =>
    obtain ⟨before, hu'⟩ := cancelReaper_origin hu
    rcases spawned hu' with ⟨before', hold⟩ | hnew
    · exact .inl ⟨before', hold, fun _ => (cancelReaper_frame _ _).2.1⟩
    · exact .inr (.inl hnew)
  | begin _ hb =>
    rcases getElem?_concat_eq_some.mp hu with ⟨-, rfl⟩ | hold
    · cases hb
    · obtain ⟨before, hold'⟩ := hb.reaper_origin hold
      exact .inl ⟨before, hold', fun _ => hb.frame.1⟩
  | drop =>
    rw [drop_eq] at hu
    have hlistener := (dropListener_frame s).2.2.2.2
    have hold : ∃ before, s.tasks[u]? = some (.reaper before next sweep) := by
      cases hr : s.reaper with
      | none =>
        simp only [hr] at hu
        exact ⟨cancelled, hlistener ▸ hu⟩
      | some r =>
        simp only [hr] at hu
        exact hlistener ▸ cancelReaper_origin hu
    obtain ⟨before, hold⟩ := hold
    exact .inl ⟨before, hold, fun _ => (drop_frame s).2.1⟩
  | @work t _ _ hw =>
    obtain ⟨job, s₁, job', ht, hw, rfl⟩ := hw
    rcases (hw.tasks_iff ht).mp hu with ⟨rfl, rfl⟩ | ⟨hut, hold⟩
    · exact .inr (.inr ⟨job, s₁, ht, hw, rfl⟩)
    · refine .inl ⟨cancelled, hold, fun held => ?_⟩
      refine (hw.extension h ht).registry.resolve_right fun held' => hut ?_
      exact Lock.isHeldBy_unique held held'

inductive Rounds (s : Server) (t : Nat) (cancelled : Bool) (next : Nat) :
    Option (Nat × Option (Nat × Nat)) → Server → Job → Prop
  | stop (hc : cancelled = true) : Rounds s t cancelled next none s (.done .ok)
  | tick (hc : cancelled = false) (due : next ≤ s.now) :
      Rounds s t cancelled next none s
        (.reaper false (nextTick next s.now s.period) (some (0, none)))
  | close {evicted : Nat} {closing : Option (Nat × Nat)} {s₁ : Server} {more place c : Nat}
      {x : Connection} (hs : s.Cleared t closing s₁ more) (hp : s₁.registry[place]? = some c)
      (hx : s.connections[c]? = some x) (hd : x.phase = .disconnected) :
      Rounds s t cancelled next (some (evicted, closing)) (s₁.setConnection c x.beginClose)
        (.reaper cancelled next (some (evicted + more, some (place, x.calls.length))))
  | rest {evicted : Nat} {closing : Option (Nat × Nat)} {s₁ : Server} {more : Nat}
      (hs : s.Cleared t closing s₁ more) (clean : ∀ c ∈ s₁.registry, s₁.isConnected c = true) :
      Rounds s t cancelled next (some (evicted, closing)) s₁ (.reaper cancelled next none)
  | crash {sweep : Option (Nat × Option (Nat × Nat))} {c call : Nat}
      (ha : s.awaited? (.reaper cancelled next sweep) = some (c, call)) (hc : s.Crashes c call) :
      Rounds s t cancelled next sweep s .crashed

theorem Work.rounds (hw : Work s t (.reaper cancelled next sweep) s₁ job') :
    Rounds s t cancelled next sweep s₁ job' := by
  generalize hj : Job.reaper cancelled next sweep = job at hw
  cases hw with
  | reaperEnd =>
    obtain ⟨rfl, -, rfl⟩ := Job.reaper.inj hj
    exact .stop rfl
  | tick due =>
    obtain ⟨rfl, rfl, rfl⟩ := Job.reaper.inj hj
    exact .tick rfl due
  | sweepNext sweeper _ hs hp hx hd =>
    cases sweeper with
    | caller => exact absurd hj nofun
    | reaper =>
      obtain ⟨rfl, rfl, rfl⟩ := Job.reaper.inj hj
      exact .close hs hp hx hd
  | sweepEnd sweeper _ hs clean =>
    cases sweeper with
    | caller => exact absurd hj nofun
    | reaper =>
      obtain ⟨rfl, rfl, rfl⟩ := Job.reaper.inj hj
      exact .rest hs clean
  | crash ha hc =>
    subst hj
    exact .crash ha hc
  | _ => exact absurd hj nofun

theorem Work.of_reaper (hw : Work s t job s₁ (.reaper cancelled next sweep)) :
    ∃ before next' sweep', job = .reaper before next' sweep' := by
  generalize hj : Job.reaper cancelled next sweep = job' at hw
  cases hw with
  | tick => exact ⟨_, _, _, rfl⟩
  | sweepNext sweeper | sweepEnd sweeper =>
    cases sweeper with
    | caller => exact absurd hj nofun
    | reaper => exact ⟨_, _, _, rfl⟩
  | @broadcastFailed _ _ _ d e => exact absurd hj nofun
  | _ => exact absurd hj nofun

theorem nextTick_le {now period : Nat} (due : next ≤ now) :
    nextTick next now period ≤ now + period := by
  unfold nextTick
  split <;> omega

theorem lt_nextTick {now period : Nat} (due : next ≤ now) (hp : 0 < period) :
    next < nextTick next now period := by
  unfold nextTick
  split <;> omega

theorem period_pos_of_starts (ha : a.Starts s) : 0 < s.period := by
  cases a with
  | start port autoReap bound =>
    obtain ⟨address, h⟩ := ha
    cases hv : s.config.validate with
    | error e => simp [start, hv] at h
    | ok =>
      have hvalid := (ServerConfig.validate_eq_ok_iff s.config).mp hv
      refine Nat.pos_of_ne_zero fun hzero => hvalid.2.1 ?_
      exact UInt64.toNat_inj.mp hzero
  | _ => exact absurd ha id

structure Punctual (s : Server) : Prop where
  due : ∀ {t next : Nat} {cancelled : Bool} {sweep : Option (Nat × Option (Nat × Nat))},
    s.tasks[t]? = some (.reaper cancelled next sweep) → next ≤ s.now + s.period
  closing : ∀ {t next evicted place call : Nat} {cancelled : Bool},
    s.tasks[t]? = some (.reaper cancelled next (some (evicted, some (place, call)))) →
      ∃ c x, s.registry[place]? = some c ∧ s.connections[c]? = some x ∧ x.Settles call
  running : ∀ {r : Nat}, s.reaper = some r →
    0 < s.period ∧ ∃ next sweep, s.tasks[r]? = some (.reaper false next sweep)

theorem punctual_new (config : ServerConfig) : Punctual { config } where
  due := by simp
  closing := by simp
  running := nofun

namespace Punctual

theorem due_turn (h : s.Punctual) (hs : s.Sound) (ht : Turn behaviour s a s')
    (hu : s'.tasks[u]? = some (.reaper cancelled next sweep)) : next ≤ s'.now + s'.period := by
  obtain ⟨hconfig, hnow⟩ := ht.clock
  rw [period_congr hconfig]
  have old {u : Nat} {cancelled : Bool} {sweep : Option (Nat × Option (Nat × Nat))}
      (hu : s.tasks[u]? = some (.reaper cancelled next sweep)) : next ≤ s'.now + s.period := by
    have hle := h.due hu
    omega
  rcases ht.reaper_origin hs hu with ⟨before, hold, -⟩ | ⟨rfl, -⟩ | ⟨job, s₁, hjob, hw, -⟩
  · exact old hold
  · omega
  · obtain ⟨before, next', sweep', rfl⟩ := hw.of_reaper
    generalize hj : Job.reaper cancelled next sweep = job' at hw
    cases hw.rounds with
    | stop | crash => exact absurd hj nofun
    | tick _ due =>
      obtain ⟨-, rfl, -⟩ := Job.reaper.inj hj
      have hle : nextTick next' s.now s.period ≤ s.now + s.period := nextTick_le due
      omega
    | close | rest =>
      obtain ⟨-, rfl, -⟩ := Job.reaper.inj hj
      exact old hjob

theorem closing_turn (h : s.Punctual) (hs : s.Sound) (ht : Turn behaviour s a s')
    {evicted : Nat}
    (hu : s'.tasks[u]? = some (.reaper cancelled next (some (evicted, some (place, call))))) :
    ∃ c x, s'.registry[place]? = some c ∧ s'.connections[c]? = some x ∧ x.Settles call := by
  rcases ht.reaper_origin hs hu with ⟨before, hold, hreg⟩ | ⟨-, hnone⟩ | ⟨job, s₁, hjob, hw, rfl⟩
  · obtain ⟨c, x, hp, hx, hsettles⟩ := h.closing hold
    have held := hs.lock.held u (by simp [hold, Job.standing])
    obtain ⟨x', hx', hsteps⟩ := ht.changes.onward hx
    refine ⟨c, x', (hreg held).symm ▸ hp, hx', ?_⟩
    cases hsteps with
    | same heq => exact heq ▸ hsettles
    | call hturn => exact hsettles.turn hturn
    | act _ hstep => exact hsettles.turn (Connection.turn_of_step hstep)
  · cases hnone
  · obtain ⟨before, next', sweep', rfl⟩ := hw.of_reaper
    generalize hj : Job.reaper cancelled next (some (evicted, some (place, call))) = job' at hw
    cases hw.rounds with
    | stop | crash | tick | rest => simp at hj
    | close hcleared hp hx hd =>
      obtain ⟨-, -, heq⟩ := Job.reaper.inj hj
      obtain ⟨-, hplace⟩ := Prod.mk.inj (Option.some.inj heq)
      obtain ⟨rfl, rfl⟩ := Prod.mk.inj (Option.some.inj hplace)
      refine ⟨_, _, hp, ?_, Connection.settles_beginClose hd⟩
      simp only [moveTask, setConnection, hcleared.frame.2.2]
      exact (getElem?_set_eq_some hx).mpr (.inl ⟨rfl, rfl⟩)

theorem goes_on (h : s.Punctual) (ht : s.tasks[t]? = some (.reaper false next sweep))
    (hw : Work s t (.reaper false next sweep) s₁ job') :
    ∃ next' sweep', job' = .reaper false next' sweep' := by
  cases hw.rounds with
  | stop hc => exact absurd hc nofun
  | tick | close | rest => exact ⟨_, _, rfl⟩
  | @crash _ c call ha hc =>
    match sweep, ht, ha with
    | some (evicted, some (place, call')), ht, ha =>
      obtain ⟨c', x, hp, hx, hsettles⟩ := h.closing ht
      obtain ⟨d, hd, hpair⟩ := Option.map_eq_some_iff.mp ha
      obtain ⟨rfl, rfl⟩ := Prod.mk.inj hpair
      obtain rfl := Option.some.inj (hp.symm.trans hd)
      obtain ⟨y, hy, hend⟩ := hc
      obtain rfl := Option.some.inj (hx.symm.trans hy)
      exact absurd hend hsettles.not_crashed
    | none, _, ha | some (_, none), _, ha => exact absurd ha nofun

theorem running_turn (h : s.Punctual) (ht : Turn behaviour s a s') (hr : s'.reaper = some r) :
    0 < s'.period ∧ ∃ next sweep, s'.tasks[r]? = some (.reaper false next sweep) := by
  have hperiod : s'.period = s.period := period_congr ht.clock.1
  rw [hperiod]
  have spawned {address : SocketAddress} :
      (s.opened address).spawnReaper.tasks[s.tasks.length]? = some (.reaper false s.now none) :=
    getElem?_concat_eq_some.mpr (.inl ⟨rfl, rfl⟩)
  cases ht with
  | start | rest | subscribe | connect | pass | on => exact h.running hr
  | startReaping _ ha =>
    obtain rfl := Option.some.inj hr
    exact ⟨period_pos_of_starts ha, _, _, spawned⟩
  | @replaceReaper previous address ha hl hprevious =>
    obtain rfl := Option.some.inj ((cancelReaper_frame _ _).2.2.2.2.2.symm.trans hr)
    obtain ⟨-, next, sweep, hold⟩ := h.running hprevious
    have hlt := (List.getElem?_eq_some_iff.mp hold).1
    exact ⟨period_pos_of_starts ha, _, _, cancelReaper_reaper spawned (Nat.ne_of_lt hlt)⟩
  | begin _ hb =>
    obtain ⟨hreaper, htasks⟩ := hb.running hr
    obtain ⟨hpos, next, sweep, hold⟩ := h.running hreaper
    exact ⟨hpos, next, sweep, getElem?_concat_eq_some.mpr (.inr (htasks ▸ hold))⟩
  | drop => exact absurd ((drop_frame s).2.2.2.2.2.symm.trans hr) nofun
  | @work t _ _ hw =>
    obtain ⟨job, s₁, job', htask, hw, rfl⟩ := hw
    have hreaper : s.reaper = some r := hw.frame.2.2.2.1.symm.trans hr
    obtain ⟨hpos, next, sweep, hold⟩ := h.running hreaper
    refine ⟨hpos, ?_⟩
    by_cases hrt : r = t
    · subst hrt
      obtain rfl := Option.some.inj (htask.symm.trans hold)
      obtain ⟨next', sweep', rfl⟩ := h.goes_on htask hw
      exact ⟨next', sweep', hw.moved_job htask⟩
    · exact ⟨next, sweep, (hw.tasks_iff htask).mpr (.inr ⟨hrt, hold⟩)⟩

theorem turn (h : s.Punctual) (hs : s.Sound) (ht : Turn behaviour s a s') : s'.Punctual where
  due := h.due_turn hs ht
  closing := h.closing_turn hs ht
  running := h.running_turn ht

end Punctual

theorem punctual_of_reachable (h : Reachable behaviour s) : s.Punctual := by
  induction h with
  | new config => exact punctual_new config
  | step a hreach hs ih =>
    have hsound := sound_of_reachable hreach
    exact ih.turn hsound (hsound.turn_of_step hs)

end Fanout.Server
