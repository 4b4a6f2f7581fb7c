import Fanout.Proofs.Server.Tally

namespace Fanout.Server

variable {behaviour : Behaviour} {s s' s₁ : Server} {t c : Nat} {job job' : Job}
  {x x' : Connection}

inductive Reckons (s s₁ : Server) (job job' : Job) : Prop
  | quiet (hj : job.registering? = none) (hj' : job'.registering? = none)
      (hf : s₁.connections.map face = s.connections.map face) (hlive : s₁.live = s.live)
  | accept {l : Nat} {x : Connection} (hj : job.registering? = none)
      (hj' : job' = .register l s.connections.length) (hsignals : x.signals = [])
      (hc : s₁.connections = s.connections ++ [x]) (hfeed : s₁.feed = s.feed)
  | count {l c : Nat} (hj : job = .register l c) (hj' : job'.registering? = none)
      (hconn : s.isConnected c = true) (hf : s₁.connections.map face = s.connections.map face)
      (hlive : s₁.live = s.live + 1)

theorem Work.reckons (h : s.Sound) (ht : s.tasks[t]? = some job) (hw : Work s t job s₁ job') :
    Reckons s s₁ job job' := by
  have counted {l d : Nat} {y : Connection} (hreg : s.tasks[t]? = some (.register l d))
      (hy : s.connections[d]? = some y) : s.isConnected d = true := by
    obtain ⟨y', hy', hun⟩ := h.fits hreg
    obtain rfl := Option.some.inj (hy.symm.trans hy')
    simp [isConnected, hy, Connection.isConnected, hun.phase]
  cases hw with
  | acceptPeer _ opened =>
    exact .accept rfl rfl (by rw [Connection.ofStream_fresh opened]) rfl rfl
  | enlist held hl hx =>
    have hset := face_set hx (face_call (Connection.turn_listen _) rfl)
    exact .count rfl rfl (counted ht hx) hset rfl
  | refuse held hl hx =>
    exact .count rfl rfl (counted ht hx) (face_set hx (face_call .close rfl)) rfl
  | broadcastNext _ _ hx | findHost _ _ hx =>
    exact .quiet rfl rfl (face_set hx (face_call (.send _) rfl)) rfl
  | sweepNext sweeper _ hs _ hx =>
    have hset := face_set hx (face_call .close rfl)
    cases hs <;> cases sweeper <;> exact .quiet rfl rfl hset rfl
  | sweepEnd sweeper _ hs => cases hs <;> cases sweeper <;> exact .quiet rfl rfl rfl rfl
  | closeNext _ _ hx => exact .quiet rfl rfl (face_set hx (face_call .close rfl)) rfl
  | @closeEnd listener => cases listener <;> exact .quiet rfl rfl rfl rfl
  | crash ha =>
    refine .quiet ?_ rfl rfl rfl
    cases job with
    | register => simp [awaited?] at ha
    | _ => rfl
  | _ => exact .quiet rfl rfl rfl rfl

theorem Tallied.works (h : s.Tallied) (hsound : s.Sound) (hw : s.Works t s') :
    s'.Tallied ∧ s'.feed.raised = s.feed.raised := by
  obtain ⟨job, s₁, job', ht, hw, rfl⟩ := hw
  obtain ⟨-, htasks, -, -, hraised⟩ := hw.frame
  refine ⟨?_, hraised⟩
  have hset : (s₁.moveTask t job job').tasks = s.tasks.set t job' := by
    simp only [moveTask, htasks]
  cases hw.reckons hsound ht with
  | quiet hj hj' hf hlive =>
    refine h.quiet hf (fun d => ?_) hlive hraised
    exact isRegistering_set ht hset (by simp [hj]) (by simp [hj'])
  | @accept l x hj hj' hsignals hc hfeed =>
    subst hj'
    refine h.accept hsignals hc ?_ ?_ hfeed
    · refine isRegistering_iff.mpr ⟨t, l, ?_⟩
      rw [hset]
      exact (getElem?_set_eq_some ht).mpr (.inl ⟨rfl, rfl⟩)
    · intro d hd
      refine isRegistering_set ht hset (by simp [hj]) ?_
      simpa [Job.registering?] using Nat.ne_of_gt hd
  | @count l c hj hj' hconn hf hlive =>
    subst hj
    refine h.count hf hconn (isRegistering_iff.mpr ⟨t, l, ht⟩) ?_ ?_ hlive hraised
    · refine Bool.eq_false_iff.mpr fun hreg => ?_
      obtain ⟨u, k, hu⟩ := isRegistering_iff.mp hreg
      rw [hset] at hu
      rcases (getElem?_set_eq_some ht).mp hu with ⟨-, rfl⟩ | ⟨hut, hold⟩
      · simp [Job.registering?] at hj'
      · exact hut (hsound.owned hold ht rfl rfl)
    · intro d hd
      refine isRegistering_set ht hset ?_ (by simp [hj'])
      simpa [Job.registering?] using Ne.symm hd

theorem Tallied.enterTask (h : s.Tallied) (hj : job.registering? = none) :
    (s.enterTask job).Tallied :=
  h.quiet rfl (isRegistering_concat hj rfl) rfl rfl

theorem Tallied.cancelReaper (h : s.Tallied) (r : Nat) : (s.cancelReaper r).Tallied := by
  rcases cancelReaper_cases s r with heq | ⟨cancelled, next, sweep, hr, heq⟩
  · rw [heq]
    exact h
  · rw [heq]
    refine h.quiet rfl (fun d => ?_) rfl rfl
    exact isRegistering_set hr rfl (by simp [Job.registering?]) (by simp [Job.registering?])

theorem Tallied.setConnection {a : Connection.Action} (h : s.Tallied)
    (hx : s.connections[c]? = some x) (ht : Connection.Turn x a x') (ha : a.isCall = true) :
    (s.setConnection c x').Tallied :=
  h.quiet (face_set hx (face_call ht ha)) (fun _ => rfl) rfl rfl

theorem Tallied.unlisten (h : s.Tallied) : s.unlisten.Tallied := by
  unfold Server.unlisten
  cases s.listening <;> exact h.quiet rfl (fun _ => rfl) rfl rfl

theorem Tallied.drop (h : s.Tallied) : s.drop.Tallied := by
  have hdrop : s.dropListener.Tallied := by
    unfold Server.dropListener
    cases s.listening <;> exact h.quiet rfl (fun _ => rfl) rfl rfl
  rw [drop_eq]
  cases s.reaper with
  | none => exact hdrop.quiet rfl (fun _ => rfl) rfl rfl
  | some r => exact (hdrop.cancelReaper r).quiet rfl (fun _ => rfl) rfl rfl

theorem Tallied.begins {r : Request} (h : s.Tallied) (hb : Begins s r s₁ job) :
    (s₁.enterTask job).Tallied := by
  cases hb with
  | acceptNone | accept | broadcast | sendTo | reap | count | list => exact h.enterTask rfl
  | send payload hg hx => exact (h.setConnection hx (.send payload) rfl).enterTask rfl
  | close hg hx => exact (h.setConnection hx .close rfl).enterTask rfl
  | listen hg hx => exact (h.setConnection hx (Connection.turn_listen _) rfl).enterTask rfl
  | @stopReaper r hr =>
    have hcancel := h.unlisten.cancelReaper r
    have hnone : ({ s.unlisten.cancelReaper r with reaper := none } : Server).Tallied :=
      hcancel.quiet rfl (fun _ => rfl) rfl rfl
    exact hnone.enterTask rfl
  | closeAll hr => exact h.unlisten.enterTask rfl

theorem Tallied.turn {a : Action} (h : s.Tallied) (hsound : s.Sound)
    (ht : Turn behaviour s a s') : s'.Tallied := by
  have hopened (address : SocketAddress) : (s.opened address).Tallied :=
    h.quiet rfl (fun _ => rfl) rfl rfl
  have hspawned (address : SocketAddress) : (s.opened address).spawnReaper.Tallied := by
    have henter : ((s.opened address).enterTask (.reaper false s.now none)).Tallied :=
      (hopened address).enterTask rfl
    exact henter.quiet rfl (fun _ => rfl) rfl rfl
  cases ht with
  | start address => exact hopened address
  | startReaping address => exact hspawned address
  | replaceReaper address => exact (hspawned address).cancelReaper _
  | rest => exact h
  | subscribe | connect | pass => exact h.quiet rfl (fun _ => rfl) rfl rfl
  | begin ha hb => exact h.begins hb
  | drop => exact h.drop
  | work ha hw => exact (h.works hsound hw).1
  | on ha hx hcall hs =>
    obtain ⟨told, entries, hreported⟩ := hsound.reported hx hcall hs
    exact hreported.tallied h

theorem Begins.feed {r : Request} (hb : Begins s r s₁ job) : s₁.feed = s.feed := by
  cases hb with
  | stopReaper => exact (cancelReaper_frame _ _).1.trans (unlisten_frame s).1
  | closeAll => exact (unlisten_frame s).1
  | _ => rfl

theorem disconnects_of_raised (h : s'.feed.raised = s.feed.raised) : Disconnects s s' [] :=
  ⟨by simp [h], by simp⟩

theorem Tallied.disconnects {a : Action} (h : s.Tallied) (hsound : s.Sound)
    (ht : Turn behaviour s a s') : ∃ entries, Disconnects s s' entries := by
  cases ht with
  | on ha hx hcall hs =>
    obtain ⟨told, entries, hreported⟩ := hsound.reported hx hcall hs
    exact ⟨entries, hreported.disconnects h⟩
  | work ha hw => exact ⟨[], disconnects_of_raised (h.works hsound hw).2⟩
  | begin ha hb => exact ⟨[], disconnects_of_raised (by rw [← hb.feed]; rfl)⟩
  | drop => exact ⟨[], disconnects_of_raised (by rw [(drop_frame s).1])⟩
  | replaceReaper => exact ⟨[], disconnects_of_raised (by rw [(cancelReaper_frame _ _).1]; rfl)⟩
  | _ => exact ⟨[], disconnects_of_raised rfl⟩

theorem tallied_of_reachable (h : Reachable behaviour s) : s.Tallied := by
  induction h with
  | new config => exact tallied_new config
  | step a hreach hs ih =>
    have hsound := sound_of_reachable hreach
    exact ih.turn hsound (hsound.turn_of_step hs)

/-- An accept that came too late for its listener is closing the connection. -/
def IsBeingRefused (s : Server) (c : Nat) : Prop :=
  ∃ (t call : Nat) (x : Connection) (p : ClosePoint),
    s.tasks[t]? = some (.refuse c call .listenerClosed) ∧ s.connections[c]? = some x ∧
      x.calls[call]? = some (.close p) ∧ p.isOver = false

theorem Sound.registered_or_refused (h : s.Sound) (hcounted : s.isCounted c = true)
    (hconn : s.isConnected c = true) : c ∈ s.registry ∨ s.IsBeingRefused c := by
  simp only [isCounted, Bool.and_eq_true, decide_eq_true_eq, Bool.not_eq_true'] at hcounted
  obtain ⟨hlt, hreg⟩ := hcounted
  obtain ⟨x, hx⟩ : ∃ x, s.connections[c]? = some x := ⟨_, List.getElem?_eq_getElem hlt⟩
  have hp : x.phase ≠ .disconnected := by
    simpa [isConnected, hx, Connection.isConnected] using hconn
  obtain ⟨t, job, ht, ho⟩ := (h.housed hx).resolve_left hp
  have hf := h.fits ht
  rcases Job.own?_eq_some.mp ho with ⟨l, rfl⟩ | ⟨call, e, rfl⟩ | rfl
  · exact absurd (isRegistering_iff.mpr ⟨t, l, ht⟩) (by simp [hreg])
  · obtain ⟨rfl, rfl, y, hy, hrefused⟩ := hf
    obtain rfl := Option.some.inj (hx.symm.trans hy)
    obtain ⟨p, hcalls⟩ := hrefused.calls
    have hcall : x.calls[0]? = some (.close p) := by simp [hcalls]
    refine .inr ⟨t, 0, x, p, ht, hx, hcall, Bool.eq_false_iff.mpr fun hover => ?_⟩
    exact hp ((h.connections hx).ended hcall hover)
  · obtain ⟨y, hy, hin | hshut⟩ := hf
    · exact .inl hin
    · obtain rfl := Option.some.inj (hx.symm.trans hy)
      exact absurd hshut.phase hp

theorem Sound.counted_of_given (h : s.Sound) (hg : s.isGiven c = true) : s.isCounted c = true := by
  obtain ⟨x, hx, -⟩ := h.given_fits hg
  have hreg : s.isRegistering c = false := by
    refine Bool.eq_false_iff.mpr fun hreg => ?_
    obtain ⟨t, l, ht⟩ := isRegistering_iff.mp hreg
    have hnot := h.not_given ht rfl nofun
    rw [hg] at hnot
    exact Bool.false_ne_true hnot.symm
  simp [isCounted, hreg, (List.getElem?_eq_some_iff.mp hx).1]

theorem Tallied.disconnections (h : s.Tallied) (hsound : s.Sound)
    (hx : s.connections[c]? = some x) :
    s.feed.raised.countP (fun e => e.connection == c && e.signal.isDisconnection) =
      if s.isConnected c = true then 0 else 1 := by
  have hcount := (hsound.connections hx).disconnections
  have htold : x.signals.countP Signal.isDisconnection =
      s.feed.raised.countP (fun e => e.connection == c && e.signal.isDisconnection) := by
    rw [← h.told hx, List.countP_map, List.countP_filter]
    refine List.countP_congr fun e _ => ?_
    simp [and_comm]
  have hconn : s.isConnected c = x.isConnected := by simp [isConnected, hx]
  rw [← htold, hconn]
  cases hup : x.isConnected with
  | true => simpa [hup] using hcount
  | false => simpa [hup] using hcount

theorem live_counts_connected (behaviour : Behaviour) {s : Server}
    (reachable : Reachable behaviour s) :
    s.live = s.tally ∧
      (∀ c, s.isGiven c = true → s.isCounted c = true) ∧
      (∀ c, s.isCounted c = true → s.isConnected c = true →
        c ∈ s.registry ∨ s.IsBeingRefused c) ∧
      (∀ c, s.isCounted c = true →
        s.feed.raised.countP (fun e => e.connection == c && e.signal.isDisconnection) =
          if s.isConnected c = true then 0 else 1) ∧
      s.live + s.feed.raised.countP (fun e => e.signal.isDisconnection) =
        (List.range s.connections.length).countP s.isCounted ∧
      ∀ a s', s.step behaviour a = some s' → ∃ entries,
        s'.feed.raised = s.feed.raised ++ entries ∧
          ∀ e ∈ entries, e.signal.isDisconnection = true →
            s.isCounted e.connection = true ∧ s.isConnected e.connection = true ∧
              s'.isConnected e.connection = false ∧ e.live + 1 = s.live ∧ e.live = s'.tally := by
  have hsound := sound_of_reachable reachable
  have htallied := tallied_of_reachable reachable
  refine ⟨htallied.live, fun c hg => hsound.counted_of_given hg, ?_, ?_, htallied.balance, ?_⟩
  · intro c hcounted hconn
    exact hsound.registered_or_refused hcounted hconn
  · intro c hcounted
    simp only [isCounted, Bool.and_eq_true, decide_eq_true_eq] at hcounted
    exact htallied.disconnections hsound (List.getElem?_eq_getElem hcounted.1)
  · intro a s' hs
    obtain ⟨entries, hraised, honce⟩ := htallied.disconnects hsound (hsound.turn_of_step hs)
    exact ⟨entries, hraised, honce⟩

theorem refused_visitor_is_counted :
    ∃ s, Reachable quietObservers s ∧ s.registry = [] ∧ s.live = 1 ∧ s.live = s.tally ∧
      (0 ∈ s.registry ∨ s.IsBeingRefused 0) := by
  have reachable : Reachable quietObservers _ :=
    reachable_of_steps (opening ++ [.begin .shutdown, .resume 0]) (.new {}) rfl
  have counts := live_counts_connected quietObservers reachable
  exact ⟨_, reachable, rfl, rfl, counts.1, counts.2.2.1 0 rfl rfl⟩

end Fanout.Server
