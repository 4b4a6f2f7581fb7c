import Fanout.Proofs.Server.Stopped
import Fanout.Proofs.Waiting.Scene

namespace Fanout

namespace Server

variable {behaviour : Behaviour} {s s' s₁ : Server} {t u r c call place more : Nat}
  {job job' : Job} {a : Action} {x x' : Connection} {failure : Failure}
  {closing : Option (Nat × Nat)}

def awaits (s : Server) (t : Nat) : Option (Nat × Nat) :=
  s.tasks[t]?.bind s.awaited?

def callAt (s : Server) : Option (Nat × Nat) → Option (Nat × Nat)
  | some (place, call) => s.registry[place]?.map (·, call)
  | none => none

def HasReaper (s : Server) (r : Nat) : Prop :=
  ∃ job, s.tasks[r]? = some job ∧ (job.isReaper = true ∨ job.isOver = true)

structure Manned (s : Server) : Prop where
  attended : Attended s.connections s.awaits
  reaper : ∀ {r : Nat}, s.reaper = some r → s.HasReaper r
  stopping : ∀ {t r : Nat} {listener : Option Nat},
    s.tasks[t]? = some (.stopReaper listener r) → s.HasReaper r

theorem manned_new (config : ServerConfig) : Manned { config } where
  attended := ⟨fun ⟨x, _, hx, _⟩ => by simp at hx, fun h => by simp [awaits] at h⟩
  reaper := nofun
  stopping := nofun

theorem awaited?_broadcast (payload : List UInt8) :
    s.awaited? (.broadcast payload closing) = s.callAt closing := by
  cases closing <;> rfl

theorem awaited?_closeAll (listener : Option Nat) (first : Option ServerError) :
    s.awaited? (.closeAll listener first closing) = s.callAt closing := by
  cases closing <;> rfl

theorem awaited?_sweeper (sweeper : Sweeper) (evicted : Nat) :
    s.awaited? (sweeper.job evicted closing) = s.callAt closing := by
  cases sweeper <;> cases closing <;> rfl

theorem awaited?_rest (sweeper : Sweeper) (evicted : Nat) :
    s.awaited? (sweeper.rest evicted) = none := by
  cases sweeper <;> rfl

theorem awaited?_congr (hr : s'.registry = s.registry) (job : Job) :
    s'.awaited? job = s.awaited? job := by
  unfold awaited?
  rw [hr]

theorem awaited?_of_standing (hj : job.standing ≠ .holding) : s'.awaited? job = s.awaited? job := by
  match job with
  | .broadcast _ (some _) | .sendTo _ _ (some _) | .reap _ (some _) | .reaper _ _ (some (_, some _))
  | .closeAll _ _ (some _) => exact absurd rfl hj
  | .accept .. | .register .. | .refuse .. | .broadcast _ none | .sendTo _ _ none | .send ..
  | .close .. | .reap _ none | .reaper _ _ none | .reaper _ _ (some (_, none)) | .stopReaper ..
  | .closeAll _ _ none | .count | .list | .done _ | .crashed => rfl

theorem awaited?_cancelled (cancelled : Bool) (next : Nat)
    (sweep : Option (Nat × Option (Nat × Nat))) :
    s.awaited? (.reaper true next sweep) = s.awaited? (.reaper cancelled next sweep) := by
  rcases sweep with _ | ⟨_, _ | _⟩ <;> rfl

theorem Returns.not_pending (hr : s.Returns c call failure) : ¬ Pending s.connections c call := by
  obtain ⟨x, hx, he⟩ := hr
  exact not_pending_of_ended hx he

theorem Arrives.not_pending (ha : s.Arrives t closing place failure)
    (hc : s.callAt closing = some (c, call)) : ¬ Pending s.connections c call := by
  cases ha with
  | first => simp [callAt] at hc
  | next hp hr =>
    simp only [callAt, hp, Option.map_some, Option.some.injEq, Prod.mk.injEq] at hc
    obtain ⟨rfl, rfl⟩ := hc
    exact hr.not_pending

theorem Cleared.not_pending (hs : s.Cleared t closing s₁ more)
    (hc : s.callAt closing = some (c, call)) : ¬ Pending s.connections c call := by
  cases hs with
  | first => simp [callAt] at hc
  | evict hp hr =>
    simp only [callAt, hp, Option.map_some, Option.some.injEq, Prod.mk.injEq] at hc
    obtain ⟨rfl, rfl⟩ := hc
    exact hr.not_pending

namespace Work

theorem not_pending (hw : Work s t job s₁ job') (ha : s.awaited? job = some (c, call)) :
    ¬ Pending s.connections c call := by
  cases hw with
  | refused hr | sentTo hr | sent hr | closed hr =>
    obtain ⟨rfl, rfl⟩ := Prod.mk.inj (Option.some.inj ha)
    exact hr.not_pending
  | broadcastNext harr | broadcastEnd harr => exact harr.not_pending (awaited?_broadcast _ ▸ ha)
  | broadcastFailed hp hr =>
    exact (Arrives.next (t := t) hp hr).not_pending (awaited?_broadcast _ ▸ ha)
  | closeNext harr | closeEnd harr => exact harr.not_pending (awaited?_closeAll _ _ ▸ ha)
  | sweepNext sweeper evicted hs | sweepEnd sweeper evicted hs =>
    exact hs.not_pending (awaited?_sweeper sweeper evicted ▸ ha)
  | crash ha' hc =>
    obtain ⟨rfl, rfl⟩ := Prod.mk.inj (Option.some.inj (ha'.symm.trans ha))
    obtain ⟨x, hx, he⟩ := hc
    exact not_pending_of_ended hx he
  | _ => exact absurd ha nofun

theorem continues (hw : Work s t job s₁ job') :
    Continues s.connections s₁.connections (s₁.awaited? job') := by
  cases hw with
  | acceptPeer _ opened =>
    exact continues_concat _ (Connection.unheard_ofStream opened).calls
  | enlist _ _ hx => exact continues_listen hx
  | refuse _ _ hx | findHost _ _ hx => exact continues_call hx rfl
  | broadcastNext _ hp hx | closeNext _ hp hx =>
    simp only [awaited?, setConnection, hp, Option.map_some]
    exact continues_call hx rfl
  | sweepNext sweeper evicted hs hp hx =>
    simp only [awaited?_sweeper, callAt, setConnection, hp, Option.map_some, hs.frame.2.2]
    exact continues_call hx rfl
  | sweepEnd sweeper evicted hs =>
    simp only [awaited?_rest, hs.frame.2.2]
    exact continues_same _
  | @closeEnd listener => cases listener <;> exact continues_same _
  | broadcastFailed | sentTo => exact continues_same _
  | _ => exact continues_same _

theorem awaits_other (h : s.Sound) (ht : s.tasks[t]? = some job) (hw : Work s t job s₁ job')
    (hut : u ≠ t) : (s₁.moveTask t job job').awaits u = s.awaits u := by
  have htasks : (s₁.moveTask t job job').tasks[u]? = s.tasks[u]? := by
    simp only [moveTask, hw.frame.2.1, List.getElem?_set_ne (Ne.symm hut)]
  unfold awaits
  rw [htasks]
  cases hu : s.tasks[u]? with
  | none => rfl
  | some other =>
    by_cases hj : other.standing = .holding
    · exact awaited?_congr ((hw.extension h ht).registry_of_holding h hu hut hj) other
    · exact awaited?_of_standing hj

theorem reaper_onward (hw : Work s t job s₁ job') (hj : job.isReaper = true) :
    job'.isReaper = true ∨ job'.isOver = true := by
  cases hw with
  | reaperEnd | crash => exact .inr rfl
  | tick => exact .inl rfl
  | sweepNext sweeper | sweepEnd sweeper =>
    cases sweeper with
    | caller => simp [Sweeper.job, Job.isReaper] at hj
    | reaper => exact .inl rfl
  | _ => simp [Job.isReaper] at hj

theorem not_stopping (hw : Work s t job s₁ job') {listener : Option Nat} {r : Nat} :
    job' ≠ .stopReaper listener r := by
  cases hw with
  | sweepNext sweeper | sweepEnd sweeper => cases sweeper <;> simp [Sweeper.job, Sweeper.rest]
  | _ => simp

theorem hasReaper (hw : Work s t job s₁ job') (ht : s.tasks[t]? = some job)
    (hr : s.HasReaper r) : (s₁.moveTask t job job').HasReaper r := by
  obtain ⟨other, hother, hj⟩ := hr
  by_cases hrt : r = t
  · subst hrt
    obtain rfl := Option.some.inj (ht.symm.trans hother)
    refine ⟨job', hw.moved_job ht, ?_⟩
    rcases hj with hj | hj
    · exact hw.reaper_onward hj
    · simp [hw.not_over] at hj
  · exact ⟨other, (hw.tasks_iff ht).mpr (.inr ⟨hrt, hother⟩), hj⟩

end Work

theorem Manned.works (h : s.Manned) (hsound : s.Sound) (hw : s.Works t s') : s'.Manned := by
  obtain ⟨job, s₁, job', ht, hw, rfl⟩ := hw
  refine ⟨?_, ?_, ?_⟩
  · refine h.attended.goes_on (t := t) hw.continues (fun u hut => hw.awaits_other hsound ht hut)
      (fun c i ha => hw.not_pending (by simpa [awaits, ht] using ha)) ?_
    simp only [awaits, hw.moved_job ht, Option.bind_some]
    rfl
  · intro r hr
    exact hw.hasReaper ht (h.reaper (hw.frame.2.2.2.1 ▸ hr))
  · intro u r listener hu
    rcases (hw.tasks_iff ht).mp hu with ⟨-, rfl⟩ | ⟨-, hold⟩
    · exact absurd rfl hw.not_stopping
    · exact hw.hasReaper ht (h.stopping hold)

theorem awaits_congr (htasks : s'.tasks = s.tasks) (hreg : s'.registry = s.registry) (u : Nat) :
    s'.awaits u = s.awaits u := by
  unfold awaits
  rw [htasks]
  cases s.tasks[u]? with
  | none => rfl
  | some job => exact awaited?_congr hreg job

theorem hasReaper_congr (htasks : s'.tasks = s.tasks) (hr : s.HasReaper r) : s'.HasReaper r := by
  unfold HasReaper
  rw [htasks]
  exact hr

theorem Manned.same (h : s.Manned) (hxs : Continues s.connections s'.connections none)
    (htasks : s'.tasks = s.tasks) (hreg : s'.registry = s.registry)
    (hreaper : s'.reaper = s.reaper ∨ s'.reaper = none) : s'.Manned where
  attended := h.attended.same hxs (awaits_congr htasks hreg)
  reaper {r} hr := by
    rcases hreaper with heq | heq
    · exact hasReaper_congr htasks (h.reaper (heq ▸ hr))
    · exact absurd (heq.symm.trans hr) nofun
  stopping {t r listener} ht := hasReaper_congr htasks (h.stopping (htasks ▸ ht))

theorem awaits_cancelReaper (r u : Nat) : (s.cancelReaper r).awaits u = s.awaits u := by
  rcases cancelReaper_cases s r with heq | ⟨cancelled, next, sweep, hr, heq⟩
  · rw [heq]
  · rw [heq]
    by_cases hur : u = r
    · subst hur
      have hnew : (s.setTask u (.reaper true next sweep)).tasks[u]? =
          some (.reaper true next sweep) := (getElem?_set_eq_some hr).mpr (.inl ⟨rfl, rfl⟩)
      simp only [awaits, hnew, hr, Option.bind_some]
      exact (awaited?_congr rfl _).trans (awaited?_cancelled cancelled next sweep)
    · simp only [awaits, setTask, List.getElem?_set_ne (Ne.symm hur)]
      rfl

theorem hasReaper_cancelReaper {v : Nat} (hr : s.HasReaper r) : (s.cancelReaper v).HasReaper r := by
  rcases cancelReaper_cases s v with heq | ⟨cancelled, next, sweep, hv, heq⟩
  · rw [heq]
    exact hr
  · rw [heq]
    obtain ⟨job, hjob, hj⟩ := hr
    by_cases hrv : r = v
    · subst hrv
      exact ⟨_, (getElem?_set_eq_some hv).mpr (.inl ⟨rfl, rfl⟩), .inl rfl⟩
    · exact ⟨job, (getElem?_set_eq_some hv).mpr (.inr ⟨hrv, hjob⟩), hj⟩

theorem Manned.cancelReaper (h : s.Manned) (v : Nat) : (s.cancelReaper v).Manned := by
  obtain ⟨-, -, hconns, -, -, hreaper⟩ := cancelReaper_frame s v
  refine ⟨?_, ?_, ?_⟩
  · rw [hconns]
    exact h.attended.same (continues_same _) (awaits_cancelReaper v)
  · intro r hr
    exact hasReaper_cancelReaper (h.reaper (hreaper ▸ hr))
  · intro t r listener ht
    exact hasReaper_cancelReaper (h.stopping ((cancelReaper_kept rfl v).mp ht))

theorem Manned.enter (h : s.Manned) (hxs : Continues s.connections s'.connections (s'.awaited? job))
    (htasks : s'.tasks = s.tasks ++ [job]) (hreg : s'.registry = s.registry)
    (hreaper : ∀ {r : Nat}, s'.reaper = some r → s.reaper = some r ∨ s'.HasReaper r)
    (hstop : ∀ {listener : Option Nat} {r : Nat}, job = .stopReaper listener r → s.HasReaper r) :
    s'.Manned := by
  have old {u : Nat} (hu : u ≠ s.tasks.length) : s'.tasks[u]? = s.tasks[u]? := by
    rw [htasks]
    rcases Nat.lt_or_gt_of_ne hu with hlt | hgt
    · exact List.getElem?_append_left hlt
    · rw [List.getElem?_eq_none (by simp; omega), List.getElem?_eq_none (by omega)]
  have kept {r : Nat} (hr : s.HasReaper r) : s'.HasReaper r := by
    obtain ⟨other, hother, hj⟩ := hr
    exact ⟨other, htasks ▸ getElem?_concat_eq_some.mpr (.inr hother), hj⟩
  refine ⟨?_, ?_, ?_⟩
  · refine h.attended.goes_on (t := s.tasks.length) hxs ?_ ?_ ?_
    · intro u hu
      simp only [awaits, old hu]
      cases s.tasks[u]? with
      | none => rfl
      | some other => exact awaited?_congr hreg other
    · intro c i ha
      simp [awaits] at ha
    · simp [awaits, htasks]
  · intro r hr
    exact (hreaper hr).elim (fun hold => kept (h.reaper hold)) id
  · intro t r listener ht
    rw [htasks] at ht
    rcases getElem?_concat_eq_some.mp ht with ⟨-, hnew⟩ | hold
    · exact kept (hstop hnew.symm)
    · exact kept (h.stopping hold)

theorem Manned.unlisten (h : s.Manned) : s.unlisten.Manned := by
  obtain ⟨-, hreg, hconns, -, htasks, -, hreaper⟩ := unlisten_frame s
  exact h.same (hconns ▸ continues_same _) htasks hreg (.inl hreaper)

theorem Manned.begins {q : Request} (h : s.Manned) (hb : Begins s q s₁ job) :
    (s₁.enterTask job).Manned := by
  cases hb with
  | acceptNone | accept | broadcast | sendTo | reap | count | list =>
    exact h.enter (continues_same _) rfl rfl .inl nofun
  | send payload _ hx =>
    refine h.enter ?_ rfl rfl .inl nofun
    exact continues_call hx rfl
  | close _ hx =>
    refine h.enter ?_ rfl rfl .inl nofun
    exact continues_call hx rfl
  | listen _ hx =>
    refine h.enter ?_ rfl rfl .inl nofun
    exact continues_listen hx
  | @stopReaper r hr =>
    have hcancel := h.unlisten.cancelReaper r
    have hreaper : (s.unlisten.cancelReaper r).reaper = s.reaper :=
      (cancelReaper_frame _ r).2.2.2.2.2.trans (unlisten_frame s).2.2.2.2.2.2
    refine hcancel.enter (continues_same _) rfl rfl nofun fun heq => ?_
    obtain ⟨-, rfl⟩ := Job.stopReaper.inj heq
    exact hcancel.reaper (hreaper.trans hr)
  | closeAll => exact h.unlisten.enter (continues_same _) rfl rfl .inl nofun

theorem Manned.spawned (h : s.Manned) (address : SocketAddress) :
    (s.opened address).spawnReaper.Manned := by
  refine h.enter ?_ rfl rfl ?_ nofun
  · exact continues_same _
  intro r hr
  obtain rfl := Option.some.inj hr
  exact .inr ⟨_, getElem?_concat_eq_some.mpr (.inl ⟨rfl, rfl⟩), .inl rfl⟩

theorem Manned.drop (h : s.Manned) : s.drop.Manned := by
  obtain ⟨-, hreg, hconns, -, htasks⟩ := dropListener_frame s
  have hdrop : s.dropListener.Manned := by
    refine h.same (hconns ▸ continues_same _) htasks hreg (.inl ?_)
    unfold dropListener
    cases s.listening <;> rfl
  rw [drop_eq]
  cases s.reaper with
  | none => exact hdrop.same (continues_same _) rfl rfl (.inr rfl)
  | some r => exact (hdrop.cancelReaper r).same (continues_same _) rfl rfl (.inr rfl)

theorem Manned.turn (h : s.Manned) (hsound : s.Sound) (ht : Turn behaviour s a s') : s'.Manned := by
  cases ht with
  | start | rest | subscribe | connect | pass =>
    exact h.same (continues_same _) rfl rfl (.inl rfl)
  | startReaping address => exact h.spawned address
  | replaceReaper address => exact (h.spawned address).cancelReaper _
  | begin ha hb => exact h.begins hb
  | drop => exact h.drop
  | work ha hw => exact h.works hsound hw
  | on ha hx hcall hs =>
    exact h.same (continues_turn hx (Connection.turn_of_step hs) hcall) rfl rfl (.inl rfl)

theorem manned_of_reachable (h : Reachable behaviour s) : s.Manned := by
  induction h with
  | new config => exact manned_new config
  | step a hreach hs ih =>
    have hsound := sound_of_reachable hreach
    exact ih.turn hsound (hsound.turn_of_step hs)

end Server

end Fanout
