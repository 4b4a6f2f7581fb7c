import Fanout.Proofs.Server.Stretch

namespace Fanout.Server

variable {behaviour : Behaviour} {s s' s₁ : Server} {t c : Nat} {job : Job} {x x' : Connection}

theorem Sound.works (h : s.Sound) (hw : s.Works t s') : s'.Sound := by
  obtain ⟨job, s₁, job', ht, hw, rfl⟩ := hw
  obtain ⟨hlock, htasks, hlistening, -, -⟩ := hw.frame
  have hext := hw.extension h ht
  have task {u : Nat} {other : Job} : (s₁.moveTask t job job').tasks[u]? = some other ↔
      u = t ∧ other = job' ∨ u ≠ t ∧ s.tasks[u]? = some other := hw.tasks_iff ht
  have given {c : Nat} (hc : s.isGiven c = true) : (s₁.moveTask t job job').isGiven c = true := by
    obtain ⟨u, hu⟩ := isGiven_iff.mp hc
    refine isGiven_iff.mpr ⟨u, task.mpr (.inr ⟨?_, hu⟩)⟩
    rintro rfl
    exact hw.undone (Option.some.inj (ht.symm.trans hu))
  refine ⟨?_, ?_, ?_, ?_, ?_, ?_, ?_⟩
  · simp only [moveTask, hlock, htasks]
    exact h.lock.map_set ht job' (hw.held h ht)
  · intro c x' hx'
    rcases hw.known hx' with ⟨x, hx⟩ | ⟨-, hsound, -⟩
    · obtain ⟨x'', hx'', rfl | ⟨a, hturn, -⟩⟩ := hext.connections hx
      · exact Option.some.inj (hx''.symm.trans hx') ▸ h.connections hx
      · exact Option.some.inj (hx''.symm.trans hx') ▸ (h.connections hx).turn hturn
    · exact hsound
  · intro u other hu
    rcases task.mp hu with ⟨rfl, rfl⟩ | ⟨hut, hold⟩
    · exact fits_congr (s := s₁) rfl rfl (hw.fits h ht)
    · exact fits_congr (s := s₁) rfl rfl (hext.fits h hold hut)
  · intro u v c j j' hu hv ho ho'
    -- Only the task that goes on can have come to answer for a connection, and that one is new.
    have fresh {w : Nat} {old : Job} (hw' : s.tasks[w]? = some old) (hold : old.own? = some c)
        (hnew : job'.own? = some c) : t = w := by
      rcases hw.own_origin hnew with hown | rfl
      · exact h.owned ht hw' hown hold
      · obtain ⟨x, hx⟩ := h.own_known hw' hold
        simp at hx
    rcases task.mp hu with ⟨rfl, rfl⟩ | ⟨-, hu'⟩
    · rcases task.mp hv with ⟨rfl, -⟩ | ⟨-, hv'⟩
      · rfl
      · exact fresh hv' ho' ho
    · rcases task.mp hv with ⟨rfl, rfl⟩ | ⟨-, hv'⟩
      · exact (fresh hu' ho ho').symm
      · exact h.owned hu' hv' ho ho'
  · intro c x' hx'
    rcases hw.known hx' with ⟨x, hx⟩ | ⟨-, -, hown⟩
    · obtain ⟨x'', hx'', hturn⟩ := hext.connections hx
      obtain rfl := Option.some.inj (hx''.symm.trans hx')
      rcases h.housed hx with hd | ⟨u, other, hu, ho⟩
      · rcases hturn with rfl | ⟨a, hturn, -⟩
        · exact .inl hd
        · exact .inl (hturn.disconnected_mono hd)
      · by_cases hut : u = t
        · subst hut
          obtain rfl := Option.some.inj (ht.symm.trans hu)
          rcases hw.own_kept h ht ho with hown | hshut
          · exact .inr ⟨u, job', task.mpr (.inl ⟨rfl, rfl⟩), hown⟩
          · obtain ⟨y, hy, hyshut⟩ := hext.isShut hshut
            obtain rfl := Option.some.inj (hy.symm.trans hx')
            exact .inl hyshut.phase
        · exact .inr ⟨u, other, task.mpr (.inr ⟨hut, hu⟩), ho⟩
    · exact .inr ⟨t, job', task.mpr (.inl ⟨rfl, rfl⟩), hown⟩
  · intro c hc
    rcases hw.registered hc with hold | rfl
    · exact given (h.given hold)
    · exact isGiven_iff.mpr ⟨t, task.mpr (.inl ⟨rfl, rfl⟩)⟩
  · intro l hl
    exact hlistening.trans (h.listening ((hw.isClosed_eq l).symm.trans hl))

theorem Sound.extend (h : s.Sound) (he : s.Extends s.tasks.length s') (hlock : s'.lock = s.lock)
    (htasks : s'.tasks = s.tasks)
    (known : ∀ {c : Nat} {x' : Connection}, s'.connections[c]? = some x' →
      ∃ x, s.connections[c]? = some x)
    (hreg : s'.registry = s.registry)
    (hl : ∀ {l : Nat}, s'.isClosed l = false → s'.listening = some l) : s'.Sound where
  lock := by
    rw [hlock, htasks]
    exact h.lock
  connections {c x'} hx' := by
    obtain ⟨x, hx⟩ := known hx'
    obtain ⟨x'', hx'', hturn⟩ := he.connections hx
    obtain rfl := Option.some.inj (hx''.symm.trans hx')
    rcases hturn with rfl | ⟨a, hturn, -⟩
    · exact h.connections hx
    · exact (h.connections hx).turn hturn
  fits {u job} hu := by
    rw [htasks] at hu
    refine he.fits h hu ?_
    rintro rfl
    simp at hu
  owned := by
    rw [htasks]
    exact h.owned
  housed {c x'} hx' := by
    obtain ⟨x, hx⟩ := known hx'
    obtain ⟨x'', hx'', hturn⟩ := he.connections hx
    obtain rfl := Option.some.inj (hx''.symm.trans hx')
    rw [htasks]
    refine (h.housed hx).imp_left fun hd => ?_
    rcases hturn with rfl | ⟨a, hturn, -⟩
    · exact hd
    · exact hturn.disconnected_mono hd
  given {c} hc := by
    simp only [isGiven, htasks]
    exact h.given (hreg ▸ hc)
  listening := hl

theorem Sound.same (h : s.Sound) (hlock : s'.lock = s.lock) (htasks : s'.tasks = s.tasks)
    (hconns : s'.connections = s.connections) (hreg : s'.registry = s.registry)
    (hl : ∀ {l : Nat}, s'.isClosed l = false → s'.listening = some l) : s'.Sound :=
  h.extend (extends_of_same hconns hreg) hlock htasks (fun hx => ⟨_, hconns ▸ hx⟩) hreg hl

theorem Sound.setConnection {a : Connection.Action} (h : s.Sound)
    (hx : s.connections[c]? = some x) (ht : Connection.Turn x a x')
    (hcall : a.isCall = true → s.isGiven c = true) : (s.setConnection c x').Sound := by
  refine h.extend (extends_setConnection hx ht fun ha => .inl (hcall ha)) rfl rfl ?_ rfl h.listening
  intro d y hy
  obtain ⟨hlt, -⟩ := List.getElem?_eq_some_iff.mp hy
  simp only [Server.setConnection, List.length_set] at hlt
  exact ⟨_, List.getElem?_eq_getElem hlt⟩

theorem Sound.enterTask (h : s.Sound) (hj : job.standing ≠ .holding) (ho : job.own? = none)
    (hf : s.Fits job) : (s.enterTask job).Sound where
  lock := by
    simp only [Server.enterTask]
    cases hs : job.standing with
    | outside => exact h.lock.map_append_outside hs
    | waiting => exact h.lock.map_append_waiting hs
    | holding => exact absurd hs hj
  connections := h.connections
  fits {u other} hu := by
    rcases getElem?_concat_eq_some.mp hu with ⟨-, rfl⟩ | hold
    · exact fits_congr (s := s) rfl rfl hf
    · exact fits_congr (s := s) rfl rfl (h.fits hold)
  owned {u v c j j'} hu hv ho₁ ho₂ := by
    rcases getElem?_concat_eq_some.mp hu with ⟨-, rfl⟩ | hu'
    · simp [ho] at ho₁
    · rcases getElem?_concat_eq_some.mp hv with ⟨-, rfl⟩ | hv'
      · simp [ho] at ho₂
      · exact h.owned hu' hv' ho₁ ho₂
  housed {c x} hx := by
    refine (h.housed hx).imp_right ?_
    intro ⟨u, other, hu, howner⟩
    exact ⟨u, other, getElem?_concat_eq_some.mpr (.inr hu), howner⟩
  given {c} hc := by
    obtain ⟨u, hu⟩ := isGiven_iff.mp (h.given hc)
    exact isGiven_iff.mpr ⟨u, getElem?_concat_eq_some.mpr (.inr hu)⟩
  listening := h.listening

theorem cancelReaper_cases (s : Server) (r : Nat) :
    s.cancelReaper r = s ∨ ∃ cancelled next sweep,
      s.tasks[r]? = some (.reaper cancelled next sweep) ∧
        s.cancelReaper r = s.setTask r (.reaper true next sweep) := by
  unfold cancelReaper
  split
  · rename_i cancelled next sweep hr
    exact .inr ⟨cancelled, next, sweep, hr, rfl⟩
  · exact .inl rfl

theorem cancelReaper_frame (s : Server) (r : Nat) :
    (s.cancelReaper r).feed = s.feed ∧ (s.cancelReaper r).registry = s.registry ∧
      (s.cancelReaper r).connections = s.connections ∧ (s.cancelReaper r).lock = s.lock ∧
      (s.cancelReaper r).listening = s.listening ∧ (s.cancelReaper r).reaper = s.reaper := by
  rcases cancelReaper_cases s r with heq | ⟨cancelled, next, sweep, -, heq⟩
  · rw [heq]
    exact ⟨rfl, rfl, rfl, rfl, rfl, rfl⟩
  · rw [heq]
    exact ⟨rfl, rfl, rfl, rfl, rfl, rfl⟩

theorem cancelReaper_kept {u : Nat} (hj : job.isReaper = false) (r : Nat) :
    (s.cancelReaper r).tasks[u]? = some job ↔ s.tasks[u]? = some job := by
  rcases cancelReaper_cases s r with heq | ⟨cancelled, next, sweep, hr, heq⟩
  · rw [heq]
  · rw [heq]
    constructor
    · intro hu
      rcases (getElem?_set_eq_some hr).mp hu with ⟨-, rfl⟩ | ⟨-, hold⟩
      · simp [Job.isReaper] at hj
      · exact hold
    · intro hu
      refine (getElem?_set_eq_some hr).mpr (.inr ⟨?_, hu⟩)
      rintro rfl
      obtain rfl := Option.some.inj (hu.symm.trans hr)
      simp [Job.isReaper] at hj

theorem Sound.cancelReaper (h : s.Sound) (r : Nat) : (s.cancelReaper r).Sound := by
  have kept {u : Nat} {other : Job} (hj : other.isReaper = false) :
      (s.cancelReaper r).tasks[u]? = some other ↔ s.tasks[u]? = some other :=
    cancelReaper_kept hj r
  rcases cancelReaper_cases s r with heq | ⟨cancelled, next, sweep, hr, heq⟩
  · rw [heq]
    exact h
  · rw [heq] at kept ⊢
    refine ⟨?_, h.connections, ?_, ?_, ?_, ?_, h.listening⟩
    · refine h.lock.map_set_same hr ?_
      rcases sweep with _ | ⟨_, _ | _⟩ <;> rfl
    · intro u other hu
      rcases (getElem?_set_eq_some hr).mp hu with ⟨rfl, rfl⟩ | ⟨-, hold⟩
      · have hf := h.fits hr
        rcases sweep with _ | ⟨_, _ | _⟩
        · trivial
        · trivial
        · exact hf
      · exact fits_congr (s := s) rfl rfl (h.fits hold)
    · intro u v c j j' hu hv ho ho'
      have hu' := (kept (Job.not_reaper_of_own ho)).mp hu
      exact h.owned hu' ((kept (Job.not_reaper_of_own ho')).mp hv) ho ho'
    · intro c x hx
      refine (h.housed hx).imp_right ?_
      rintro ⟨u, other, hu, ho⟩
      exact ⟨u, other, (kept (Job.not_reaper_of_own ho)).mpr hu, ho⟩
    · intro c hc
      obtain ⟨u, hu⟩ := isGiven_iff.mp (h.given hc)
      exact isGiven_iff.mpr ⟨u, (kept rfl).mpr hu⟩

theorem Sound.connect (h : s.Sound) (l : Nat) (f : Listener → Listener)
    (hf : ∀ listener, (f listener).closed = listener.closed) : (s.changeListener l f).Sound := by
  refine h.same rfl rfl rfl rfl fun hk => ?_
  rw [isClosed_changeListener l hf] at hk
  exact h.listening hk

theorem Sound.isClosed_of_listening_none (h : s.Sound) (hl : s.listening = none) (k : Nat) :
    s.isClosed k = true := by
  cases hk : s.isClosed k with
  | true => rfl
  | false => simp [h.listening hk] at hl

theorem Sound.isClosed_after {f : Listener → Listener} (h : s.Sound)
    (hf : ∀ listener, (f listener).closed = true) {l : Nat} (hl : s.listening = some l) (k : Nat) :
    (s.changeListener l f).isClosed k = true := by
  simp only [isClosed, changeListener, List.getElem?_modify]
  cases hk : s.listeners[k]? with
  | none => rfl
  | some listener =>
    by_cases hlk : l = k
    · simp [hlk, hf]
    · cases hc : listener.closed with
      | true => simp [hlk, hc]
      | false =>
        have hopen := h.listening (l := k) (by simp [isClosed, hk, hc])
        exact absurd (Option.some.inj (hl.symm.trans hopen)) hlk

theorem unlisten_frame (s : Server) :
    s.unlisten.feed = s.feed ∧ s.unlisten.registry = s.registry ∧
      s.unlisten.connections = s.connections ∧ s.unlisten.lock = s.lock ∧
      s.unlisten.tasks = s.tasks ∧ s.unlisten.listening = none ∧ s.unlisten.reaper = s.reaper := by
  unfold Server.unlisten
  cases s.listening <;> exact ⟨rfl, rfl, rfl, rfl, rfl, rfl, rfl⟩

theorem Sound.unlisten (h : s.Sound) : s.unlisten.Sound := by
  unfold Server.unlisten
  cases hl : s.listening with
  | none =>
    refine h.same rfl rfl rfl rfl fun {k} hk => ?_
    exact absurd (h.isClosed_of_listening_none hl k) (Bool.eq_false_iff.mp hk)
  | some l =>
    refine h.same rfl rfl rfl rfl fun {k} hk => ?_
    exact absurd (h.isClosed_after (fun _ => rfl) hl k) (Bool.eq_false_iff.mp hk)

theorem Sound.opened (h : s.Sound) (hl : s.listening = none) (address : SocketAddress) :
    (s.opened address).Sound := by
  refine h.same rfl rfl rfl rfl fun {k} hk => ?_
  have hclosed := h.isClosed_of_listening_none hl k
  simp only [isClosed, Server.opened] at hk hclosed
  rcases Nat.lt_trichotomy k s.listeners.length with hlt | rfl | hlt
  · rw [List.getElem?_append_left hlt] at hk
    simp [hk] at hclosed
  · rfl
  · rw [List.getElem?_eq_none (by simp; omega)] at hk
    exact absurd hk.symm Bool.false_ne_true

theorem Sound.spawnReaper (h : s.Sound) : s.spawnReaper.Sound := by
  have henter : (s.enterTask (.reaper false s.now none)).Sound := h.enterTask nofun rfl trivial
  exact henter.same rfl rfl rfl rfl henter.listening

theorem isClosed_cancelReaper (r k : Nat) : (s.cancelReaper r).isClosed k = s.isClosed k := by
  rcases cancelReaper_cases s r with heq | ⟨_, _, _, -, heq⟩
  · rw [heq]
  · rw [heq]
    rfl

def dropListener (s : Server) : Server :=
  match s.listening with
  | some l => s.changeListener l fun l => { l with closed := true, released := true }
  | none => s

theorem drop_eq (s : Server) :
    s.drop =
      { (match s.reaper with
        | some r => s.dropListener.cancelReaper r
        | none => s.dropListener) with
        listening := none
        reaper := none
        dropped := true } := by
  unfold Server.drop dropListener
  cases s.listening <;> rfl

theorem Sound.dropListener (h : s.Sound) :
    s.dropListener.Sound ∧ ∀ k, s.dropListener.isClosed k = true := by
  unfold Server.dropListener
  cases hl : s.listening with
  | none => exact ⟨h, h.isClosed_of_listening_none hl⟩
  | some l =>
    have hall := h.isClosed_after (f := fun l => { l with closed := true, released := true })
      (fun _ => rfl) hl
    refine ⟨h.same rfl rfl rfl rfl fun {k} hk => ?_, hall⟩
    exact absurd (hall k) (Bool.eq_false_iff.mp hk)

theorem dropListener_frame (s : Server) :
    s.dropListener.feed = s.feed ∧ s.dropListener.registry = s.registry ∧
      s.dropListener.connections = s.connections ∧ s.dropListener.lock = s.lock ∧
      s.dropListener.tasks = s.tasks := by
  unfold Server.dropListener
  cases s.listening <;> exact ⟨rfl, rfl, rfl, rfl, rfl⟩

theorem drop_frame (s : Server) :
    s.drop.feed = s.feed ∧ s.drop.registry = s.registry ∧ s.drop.connections = s.connections ∧
      s.drop.lock = s.lock ∧ s.drop.listening = none ∧ s.drop.reaper = none := by
  obtain ⟨hfeed, hreg, hconns, hlock, -⟩ := dropListener_frame s
  rw [drop_eq]
  cases s.reaper with
  | none => exact ⟨hfeed, hreg, hconns, hlock, rfl, rfl⟩
  | some r =>
    obtain ⟨hfeed', hreg', hconns', hlock', -⟩ := cancelReaper_frame s.dropListener r
    exact ⟨hfeed'.trans hfeed, hreg'.trans hreg, hconns'.trans hconns, hlock'.trans hlock, rfl, rfl⟩

theorem Sound.drop (h : s.Sound) : s.drop.Sound := by
  obtain ⟨hdrop, hall⟩ := h.dropListener
  rw [drop_eq]
  cases s.reaper with
  | none =>
    refine hdrop.same rfl rfl rfl rfl fun {k} hk => ?_
    exact absurd (hall k) (Bool.eq_false_iff.mp hk)
  | some r =>
    refine (hdrop.cancelReaper r).same rfl rfl rfl rfl fun {k} hk => ?_
    exact absurd ((isClosed_cancelReaper r k).trans (hall k)) (Bool.eq_false_iff.mp hk)

theorem Sound.begins {r : Request} (h : s.Sound) (hb : Begins s r s₁ job) :
    (s₁.enterTask job).Sound := by
  cases hb with
  | acceptNone | accept | broadcast | sendTo | reap | count | list =>
    exact h.enterTask nofun rfl trivial
  | send payload hg hx =>
    exact (h.setConnection hx (.send payload) fun _ => hg).enterTask nofun rfl trivial
  | close hg hx => exact (h.setConnection hx .close fun _ => hg).enterTask nofun rfl trivial
  | listen hg hx =>
    exact (h.setConnection hx (Connection.turn_listen _) fun _ => hg).enterTask nofun rfl trivial
  | @stopReaper r hr =>
    have hcancel := h.unlisten.cancelReaper r
    have hnone : ({ s.unlisten.cancelReaper r with reaper := none } : Server).Sound :=
      hcancel.same rfl rfl rfl rfl hcancel.listening
    exact hnone.enterTask nofun rfl trivial
  | closeAll hr => exact h.unlisten.enterTask nofun rfl trivial

theorem Sound.turn {a : Action} (h : s.Sound) (ht : Turn behaviour s a s') : s'.Sound := by
  cases ht with
  | start address ha hl => exact h.opened hl address
  | startReaping address ha hl => exact (h.opened hl address).spawnReaper
  | replaceReaper address ha hl => exact (h.opened hl address).spawnReaper.cancelReaper _
  | rest => exact h
  | subscribe | pass => exact h.same rfl rfl rfl rfl h.listening
  | begin ha hb => exact h.begins hb
  | drop => exact h.drop
  | connect l stream => exact h.connect l _ fun _ => rfl
  | work ha hw => exact h.works hw
  | on ha hx hcall hs =>
    have hset := h.setConnection hx (Connection.turn_of_step hs) fun hc => by simp [hcall] at hc
    exact hset.same rfl rfl rfl rfl hset.listening

theorem sound_of_reachable (h : Reachable behaviour s) : s.Sound := by
  induction h with
  | new config => exact sound_new config
  | step a _ hs ih => exact ih.turn (ih.turn_of_step hs)

end Fanout.Server
