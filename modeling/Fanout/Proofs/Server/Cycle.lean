import Fanout.Proofs.Server.Shutdown
import Fanout.Proofs.Server.Starting
import Fanout.Proofs.Server.Ticking

namespace Fanout.Server

variable {behaviour : Behaviour} {s s' s₁ s₂ : Server} {a : Action} {t u r : Nat} {job job' : Job}

def RunsReaper (s : Server) (t : Nat) : Prop :=
  ∃ next sweep, s.tasks[t]? = some (.reaper false next sweep)

/-- The reaper in the slot is the only one that has not been cancelled, and the listener in its slot
is open as long as there is a reaper in the other one. -/
structure Attached (s : Server) : Prop where
  listens : ∀ {r : Nat}, s.reaper = some r → ∃ l, s.listening = some l
  opens : ∀ {l : Nat}, s.listening = some l → s.isClosed l = false
  alone : ∀ {t : Nat}, s.RunsReaper t → s.reaper = some t

theorem attached_new (config : ServerConfig) : Attached { config } where
  listens := nofun
  opens := nofun
  alone := by simp [RunsReaper]

theorem RunsReaper.of_tasks (h : s'.RunsReaper t) (htasks : s'.tasks = s.tasks) :
    s.RunsReaper t := by
  obtain ⟨next, sweep, ht⟩ := h
  exact ⟨next, sweep, htasks ▸ ht⟩

theorem RunsReaper.of_cancel (h : (s.cancelReaper r).RunsReaper t) : t ≠ r ∧ s.RunsReaper t := by
  obtain ⟨next, sweep, ht⟩ := h
  unfold cancelReaper at ht
  split at ht
  · rename_i hr
    rcases (getElem?_set_eq_some hr).mp ht with ⟨-, hnew⟩ | ⟨hne, hold⟩
    · cases hnew
    · exact ⟨hne, next, sweep, hold⟩
  · rename_i hother
    exact ⟨fun htr => hother _ _ _ (htr ▸ ht), next, sweep, ht⟩

theorem RunsReaper.of_concat {address : SocketAddress}
    (h : (s.opened address).spawnReaper.RunsReaper t) : t = s.tasks.length ∨ s.RunsReaper t := by
  obtain ⟨next, sweep, ht⟩ := h
  rcases getElem?_concat_eq_some.mp ht with ⟨hlast, -⟩ | hold
  · exact .inl hlast
  · exact .inr ⟨next, sweep, hold⟩

theorem RunsReaper.of_enter {request : Request} (hb : Begins s request s₁ job)
    (h : (s₁.enterTask job).RunsReaper t) : s₁.RunsReaper t := by
  obtain ⟨next, sweep, ht⟩ := h
  rcases getElem?_concat_eq_some.mp ht with ⟨-, rfl⟩ | hold
  · cases hb
  · exact ⟨next, sweep, hold⟩

theorem RunsReaper.of_drop (h : s.drop.RunsReaper t) : s.RunsReaper t ∧ s.reaper ≠ some t := by
  have hlistener := (dropListener_frame s).2.2.2.2
  rw [drop_eq] at h
  cases hr : s.reaper with
  | none =>
    simp only [hr] at h
    exact ⟨h.of_tasks hlistener, nofun⟩
  | some r =>
    simp only [hr] at h
    have hcancel : (s.dropListener.cancelReaper r).RunsReaper t := h
    obtain ⟨hne, hold⟩ := hcancel.of_cancel
    exact ⟨hold.of_tasks hlistener, fun hrt => hne (Option.some.inj hrt).symm⟩

theorem RunsReaper.of_work (h : (s₁.moveTask u job job').RunsReaper t)
    (ht : s.tasks[u]? = some job) (hw : Work s u job s₁ job') : s.RunsReaper t := by
  obtain ⟨next, sweep, hnew⟩ := h
  rcases (hw.tasks_iff ht).mp hnew with ⟨rfl, rfl⟩ | ⟨-, hold⟩
  · obtain ⟨before, next', sweep', rfl⟩ := hw.of_reaper
    generalize hj : Job.reaper false next sweep = job' at hw
    cases hw.rounds with
    | stop | crash => cases hj
    | tick hc => exact ⟨next', _, hc ▸ ht⟩
    | close | rest =>
      obtain ⟨rfl, -, -⟩ := Job.reaper.inj hj
      exact ⟨next', _, ht⟩
  · exact ⟨next, sweep, hold⟩

namespace Attached

theorem stopped_reaper (h : s.Attached) (hl : s.listening = none) : s.reaper = none := by
  cases hr : s.reaper with
  | none => rfl
  | some r =>
    obtain ⟨l, hl'⟩ := h.listens hr
    cases hl.symm.trans hl'

theorem begins {request : Request} (h : s.Attached) (hb : Begins s request s₁ job) :
    (s₁.enterTask job).Attached := by
  have same (hlistening : s₁.listening = s.listening) (hreaper : s₁.reaper = s.reaper)
      (hlisteners : s₁.listeners = s.listeners) (htasks : s₁.tasks = s.tasks) :
      (s₁.enterTask job).Attached := by
    refine ⟨fun hr => ?_, fun hl => ?_, fun hruns => ?_⟩
    · obtain ⟨l, hl⟩ := h.listens (hreaper.symm.trans hr)
      exact ⟨l, hlistening.trans hl⟩
    · have hopen := h.opens (hlistening.symm.trans hl)
      simpa only [isClosed, enterTask, hlisteners] using hopen
    · exact hreaper.trans (h.alone ((hruns.of_enter hb).of_tasks htasks))
  obtain ⟨-, -, -, -, htasks, hlistening, hreaper⟩ := unlisten_frame s
  cases hb with
  | @stopReaper r hr =>
    have hlistening' : (s.unlisten.cancelReaper r).listening = none :=
      (cancelReaper_frame s.unlisten r).2.2.2.2.1.trans hlistening
    refine ⟨fun hr' => ?_, fun hl => ?_, fun hruns => ?_⟩
    · cases hr'
    · cases hlistening'.symm.trans hl
    · have hcancelled : (s.unlisten.cancelReaper r).RunsReaper _ :=
        (hruns.of_enter (.stopReaper hr)).of_tasks rfl
      obtain ⟨hne, hold⟩ := hcancelled.of_cancel
      exact absurd (Option.some.inj ((h.alone (hold.of_tasks htasks)).symm.trans hr)) hne
  | closeAll hr =>
    refine ⟨fun hr' => ?_, fun hl => ?_, fun hruns => ?_⟩
    · cases (hreaper.trans hr).symm.trans hr'
    · cases hlistening.symm.trans hl
    · exact hreaper.trans (h.alone ((hruns.of_enter (.closeAll hr)).of_tasks htasks))
  | _ => exact same rfl rfl rfl rfl

theorem turn (h : s.Attached) (ht : Turn behaviour s a s') : s'.Attached := by
  have opened {address : SocketAddress} {l : Nat}
      (hl : (s.opened address).listening = some l) : (s.opened address).isClosed l = false := by
    obtain rfl := Option.some.inj hl
    simp [isClosed, Server.opened]
  cases ht with
  | start address ha hl =>
    exact ⟨fun _ => ⟨_, rfl⟩, opened, fun hruns => h.alone (hruns.of_tasks rfl)⟩
  | startReaping address ha hl hr =>
    refine ⟨fun _ => ⟨_, rfl⟩, opened, fun hruns => ?_⟩
    rcases hruns.of_concat with rfl | hold
    · rfl
    · cases (h.alone hold).symm.trans hr
  | replaceReaper address ha hl hr => cases (h.stopped_reaper hl).symm.trans hr
  | rest | subscribe | pass | on => exact ⟨h.listens, h.opens, h.alone⟩
  | connect l stream =>
    have hsame (k : Nat) : (s.changeListener l fun listener =>
        { listener with pending := listener.pending ++ [stream] }).isClosed k = s.isClosed k :=
      isClosed_changeListener l fun _ => rfl
    exact ⟨h.listens, fun hl => (hsame _).trans (h.opens hl), h.alone⟩
  | begin _ hb => exact h.begins hb
  | drop =>
    obtain ⟨-, -, -, -, hlistening, hreaper⟩ := drop_frame s
    refine ⟨fun hr => ?_, fun hl => ?_, fun hruns => ?_⟩
    · cases hreaper.symm.trans hr
    · cases hlistening.symm.trans hl
    · obtain ⟨hold, hother⟩ := hruns.of_drop
      exact absurd (h.alone hold) hother
  | work _ hw =>
    obtain ⟨job, s₁, job', htask, hw, rfl⟩ := hw
    obtain ⟨-, -, hlistening, hreaper, -⟩ := hw.frame
    refine ⟨fun hr => ?_, fun hl => ?_, fun hruns => ?_⟩
    · obtain ⟨l, hl⟩ := h.listens (hreaper.symm.trans hr)
      exact ⟨l, hlistening.trans hl⟩
    · exact (hw.isClosed_eq _).trans (h.opens (hlistening.symm.trans hl))
    · exact hreaper.trans (h.alone (hruns.of_work htask hw))

end Attached

theorem attached_of_reachable (h : Reachable behaviour s) : s.Attached := by
  induction h with
  | new config => exact attached_new config
  | step a hreach hs ih =>
    exact ih.turn ((sound_of_reachable hreach).turn_of_step hs)

section Starting

variable {autoReap : Bool} {address : SocketAddress}

structure StartsRight (s : Server) (autoReap : Bool) (o : SocketCalls) (s' : Server)
    (out : Except ServerError SocketAddress) : Prop where
  config : ∀ e, out = .error (.config e) ↔ s.config.validate = .error e
  already : s.config.validate = .ok () → (out = .error .alreadyStarted ↔ s.isListening = true)
  setup : s.config.validate = .ok () → s.isListening = false →
    ((∃ address reason, out = .error (.setup address reason)) ↔ o.Fails)
  failed : ∀ e, out = .error e → s' = s
  opened : ∀ address, out = .ok address → s'.localAddress? = some address ∧
    (∀ l, s.isClosed l = true) ∧ (∀ l, s'.isClosed l = false ↔ l = s.listeners.length) ∧
    ((∃ t, s'.RunsReaper t) ↔ autoReap = true)

theorem Sound.isClosed_opened (h : s.Sound) (hl : s.listening = none) (address : SocketAddress)
    (l : Nat) : (s.opened address).isClosed l = false ↔ l = s.listeners.length := by
  constructor
  · intro hopen
    exact (Option.some.inj ((h.opened hl address).listening hopen)).symm
  · rintro rfl
    simp [isClosed, Server.opened]

theorem Attached.runs_opened (h : s.Attached) (hr : s.reaper = none) :
    (∃ t, (if autoReap then (s.opened address).spawnReaper else s.opened address).RunsReaper t) ↔
      autoReap = true := by
  cases autoReap with
  | true =>
    have hlast : (s.opened address).spawnReaper.tasks[s.tasks.length]? =
        some (.reaper false s.now none) := getElem?_concat_eq_some.mpr (.inl ⟨rfl, rfl⟩)
    exact iff_of_true ⟨s.tasks.length, s.now, none, hlast⟩ rfl
  | false =>
    refine iff_of_false ?_ nofun
    rintro ⟨t, hruns⟩
    cases (h.alone (hruns.of_tasks rfl)).symm.trans hr

theorem isListening_eq_false : s.isListening = false ↔ s.listening = none := by
  rw [isListening, Option.isSome_eq_false_iff, Option.isNone_iff_eq_none]

theorem Attached.startsRight (h : s.Attached) (hs : s.Sound) (port : UInt16) (autoReap : Bool)
    (o : SocketCalls) :
    s.StartsRight autoReap o (s.start port autoReap o.answer).1
      (s.start port autoReap o.answer).2 := by
  have hso := s.starts_so port autoReap o.answer
  have hopened (address : SocketAddress) (hv : s.config.validate = .ok ())
      (hl : s.isListening = false) (ho : o.answer = .ok address) :
      (s.start port autoReap o.answer).1 =
        if autoReap then (s.opened address).spawnReaper else s.opened address := by
    rw [ho]
    exact start_opened hv hl (h.stopped_reaper (isListening_eq_false.mp hl))
  generalize (s.start port autoReap o.answer).1 = s' at hso hopened ⊢
  generalize (s.start port autoReap o.answer).2 = out at hso ⊢
  cases hso with
  | config hv =>
    refine ⟨fun e => ?_, fun hok => ?_, fun hok => ?_, fun _ _ => rfl, nofun⟩
    · simp [hv]
    · cases hv.symm.trans hok
    · cases hv.symm.trans hok
  | already hv hl =>
    refine ⟨fun e => ?_, fun _ => iff_of_true rfl hl, fun _ hl' => ?_, fun _ _ => rfl, nofun⟩
    · simp [hv]
    · cases hl.symm.trans hl'
  | setup hv hl hb =>
    refine ⟨fun e => ?_, fun _ => ?_, fun _ _ => ?_, fun _ _ => rfl, nofun⟩
    · simp [hv]
    · simp [hl]
    · exact iff_of_true ⟨_, _, rfl⟩ ((o.fails_iff).mpr ⟨_, hb⟩)
  | @opened _ address hv hl hb =>
    have hnone := isListening_eq_false.mp hl
    refine ⟨fun e => ?_, fun _ => ?_, fun _ _ => ?_, nofun, fun address' heq => ?_⟩
    · simp [hv]
    · simp [hl]
    · simp [SocketCalls.fails_iff, hb]
    · obtain rfl := Except.ok.inj heq
      rw [hopened address hv hl hb]
      refine ⟨?_, hs.isClosed_of_listening_none hnone, fun l => ?_,
        h.runs_opened (h.stopped_reaper hnone)⟩
      · cases autoReap <;> simp [localAddress?, Server.opened, spawnReaper, addTask]
      · rw [← hs.isClosed_opened hnone address l]
        cases autoReap <;> rfl

end Starting

theorem Attached.none_runs (h : s.Attached) (hr : s.reaper = none) (t : Nat) :
    ¬ s.RunsReaper t := by
  intro hruns
  cases (h.alone hruns).symm.trans hr

theorem Work.dropped (hw : Work s t job s₁ job') : s₁.dropped = s.dropped := by
  cases hw with
  | sweepNext _ _ hs | sweepEnd _ _ hs => cases hs <;> rfl
  | @closeEnd listener => cases listener <;> rfl
  | _ => rfl

theorem dropped_step (hs : s.Sound) (hdropped : s.dropped = true)
    (hstep : s.step behaviour a = some s') : s'.dropped = true ∧ ¬ a.Starts s := by
  have present := present_of_step hstep
  have idle : ¬ a.Starts s ∧ ∀ r, a ≠ .begin r := by
    cases a with
    | start | begin => simp [step, present, hdropped] at hstep
    | _ => exact ⟨id, fun _ h => by cases h⟩
  refine ⟨?_, idle.1⟩
  cases hs.turn_of_step hstep with
  | start _ ha | startReaping _ ha | replaceReaper _ ha => exact absurd ha idle.1
  | rest | subscribe | connect | pass | on => exact hdropped
  | begin ha => exact absurd ha (idle.2 _)
  | drop => rfl
  | work _ hw =>
    obtain ⟨job, s₁, job', -, hw, rfl⟩ := hw
    exact hw.dropped.trans hdropped

theorem Run.lull (hrun : Run behaviour s s') (hs : Reachable behaviour s)
    (hdropped : s.dropped = true) : Lull behaviour s s' := by
  suffices Lull behaviour s s' ∧ s'.dropped = true from this.1
  induction hrun with
  | refl => exact ⟨.refl, hdropped⟩
  | tail _ hn ih =>
    obtain ⟨a, ha⟩ := hn
    have hsound := sound_of_reachable (ih.1.reachable hs)
    obtain ⟨hdropped', hrests⟩ := dropped_step hsound ih.2 ha
    exact ⟨ih.1.tail ⟨a, hrests, ha⟩, hdropped'⟩

theorem stopped_of_drop (hs : s.Sound) (hstep : s.step behaviour .drop = some s₁) :
    s₁.Stopped ∧ s₁.dropped = true := by
  have hdrop : s₁ = s.drop := by
    have present := present_of_step hstep
    cases hd : s.dropped with
    | true => simp [step, present, hd] at hstep
    | false => simpa [step, present, hd, eq_comm] using hstep
  obtain ⟨-, -, -, -, hlistening, hreaper⟩ := drop_frame s
  exact hdrop ▸ ⟨⟨hs.drop, hlistening, hreaper⟩, rfl⟩

theorem reaper_lives_with_listener (reachable : Reachable behaviour s) :
    (∀ r, s.reaper = some r → ∃ l, s.listening = some l ∧ s.isClosed l = false) ∧
      (∀ t u, s.RunsReaper t → s.RunsReaper u → t = u) ∧
      (∀ port autoReap (o : SocketCalls), s.StartsRight autoReap o
        (s.start port autoReap o.answer).1 (s.start port autoReap o.answer).2) ∧
      (∀ s₁ s₂, s.step behaviour (.begin .shutdown) = some s₁ → Lull behaviour s₁ s₂ →
        s₂.reaper = none ∧ ∀ t, ¬ s₂.RunsReaper t) ∧
      ∀ s₁ s₂, s.step behaviour .drop = some s₁ → Run behaviour s₁ s₂ →
        s₂.reaper = none ∧ ∀ t, ¬ s₂.RunsReaper t := by
  have hsound := sound_of_reachable reachable
  have attached := attached_of_reachable reachable
  have still {s₁ s₂ : Server} {a : Action} (hs : s.step behaviour a = some s₁)
      (stopped : s₁.Stopped) (hl : Lull behaviour s₁ s₂) :
      s₂.reaper = none ∧ ∀ t, ¬ s₂.RunsReaper t := by
    have hreach := hl.reachable (.step a reachable hs)
    have hnone := (stopped.lull hl).1.reaper
    exact ⟨hnone, (attached_of_reachable hreach).none_runs hnone⟩
  refine ⟨fun r hr => ?_, fun t u ht hu => ?_, attached.startsRight hsound, ?_, ?_⟩
  · obtain ⟨l, hl⟩ := attached.listens hr
    exact ⟨l, hl, attached.opens hl⟩
  · exact Option.some.inj ((attached.alone ht).symm.trans (attached.alone hu))
  · intro s₁ s₂ hs hl
    exact still hs (hsound.shutdown_begun hs).1 hl
  · intro s₁ s₂ hs hrun
    obtain ⟨stopped, hdropped⟩ := stopped_of_drop hsound hs
    exact still hs stopped (hrun.lull (.step _ reachable hs) hdropped)

def relay : List Action :=
  [.start 65123 true (.ok address), .begin .shutdown, .start 65124 true (.ok address)]

theorem second_reaper_runs_alone :
    ∃ s s₁, Reachable quietObservers s ∧ s.tasks[0]? = some (.reaper true 0 none) ∧
      s.tasks[1]? = some (.stopReaper (some 0) 0) ∧ (∀ t, s.RunsReaper t → t = 2) ∧
      (∃ l, s.listening = some l ∧ s.isClosed l = false) ∧
      s.step quietObservers (.begin .shutdown) = some s₁ ∧ s₁.reaper = none ∧
      ∀ t, ¬ s₁.RunsReaper t := by
  have comes : (steps? quietObservers relay { config := {} }).any (fun s =>
      s.tasks[0]? = some (.reaper true 0 none) ∧ s.tasks[1]? = some (.stopReaper (some 0) 0) ∧
        s.tasks[2]? = some (.reaper false 0 none) ∧ s.reaper = some 2 ∧
        (s.step quietObservers (.begin .shutdown)).isSome = true) = true := by
    decide +kernel
  obtain ⟨s, hrun, hs⟩ := (Option.any_eq_true _ _).mp comes
  obtain ⟨first, waits, second, slot, stops⟩ := of_decide_eq_true hs
  obtain ⟨s₁, hstep⟩ := Option.isSome_iff_exists.mp stops
  have reachable := reachable_of_steps relay (.new {}) hrun
  obtain ⟨listens, alone, -, shut, -⟩ := reaper_lives_with_listener reachable
  exact ⟨s, s₁, reachable, first, waits, fun t ht => alone t 2 ht ⟨0, none, second⟩,
    listens 2 slot, hstep, shut s₁ s₁ hstep .refl⟩

end Fanout.Server
