import Fanout.Proofs.Server.Admission
import Fanout.Proofs.Server.Crash
import Fanout.Proofs.Server.Eviction

namespace Fanout

namespace Connection

/-- No callback has ever been left to those who close the connection. -/
structure Engaged (c : Connection) : Prop where
  started : c.started = 1
  intact : ∀ i : Nat, c.calls[i]? ≠ some (.close .crashed)

variable {σ : Type} {tell : Sink σ} {c c' : Connection} {a : Action} {s s' : σ} {i : Nat}

theorem Unheard.engaged (h : c.Unheard) (hs : c.Sound) : c.listen.1.Engaged := by
  have hstaged := hs.staged
  simp only [Staged, h.phase] at hstaged
  rw [listen_eq, startListen_kept h.cancelled h.phase (h.receiver hs).2]
  refine ⟨by simp [addCall, hstaged.2.2.2], fun i hi => ?_⟩
  rcases getElem?_concat_eq_some.mp hi with ⟨-, hnew⟩ | hold
  · cases hnew
  · simp [h.calls] at hold

namespace Engaged

theorem down_of_joined (h : c.Engaged) (hs : c.Sound) {tookHandle : Bool} {failure : Failure}
    (hi : c.calls[i]? = some (.close (.joining tookHandle failure)))
    (joined : tookHandle = true → c.receiver.hasEnded = true) :
    c.phase = .disconnected ∧ c.receiver.hasEnded = true := by
  have hphase : c.phase = .disconnected := by
    cases hp : c.phase with
    | created =>
      have hstaged := hs.staged
      simp [Staged, hp, h.started] at hstaged
    | listening => exact absurd hp (hs.not_listening hi joined)
    | disconnected => rfl
  refine ⟨hphase, ?_⟩
  rcases hs.receiver_of_disconnected hphase with ⟨-, hnone⟩ | ⟨hended, -⟩
  · exact absurd (hnone.symm.trans h.started) Nat.zero_ne_one
  · exact hended

theorem turn (h : c.Engaged) (hs : c.Sound) (ht : Turn c a c') : c'.Engaged where
  started := by
    cases ht with
    | listen _ hp =>
      have hstaged := hs.staged
      simp [Staged, hp, h.started] at hstaged
    | _ => exact h.started
  intact i hi := by
    rcases ht.call_origin hi with hold | ⟨-, hb⟩ | ⟨call, hcall, hm⟩
    · exact h.intact i hold
    · cases hb
    · cases hm with
      | finishClose joined hp =>
        rcases hp with hp | ⟨-, hup⟩
        · cases hp
        · exact hup (h.down_of_joined hs hcall joined).1

theorem call_step (h : c.Engaged) (hs : c.Sound) (ha : a.promptCall? = some i)
    (hstep : c.step tell a s = some (c', s')) :
    s' = s ∧ (a = .finishClose i → c.phase = .disconnected ∧ c.receiver.hasEnded = true) := by
  have down (heq : a = .finishClose i) : c.phase = .disconnected ∧ c.receiver.hasEnded = true := by
    subst heq
    cases turn_of_step hstep with
    | finishClose hi joined => exact h.down_of_joined hs hi joined
  refine ⟨quiet_of_draining (Action.draining_of_prompt ha) hstep fun j heq => ?_, down⟩
  subst heq
  obtain rfl := Option.some.inj ha
  exact (down rfl).1

end Engaged

end Connection

def Job.isClearing (job : Job) : Bool :=
  job.isReaping || job.isShutdown

namespace Server

variable {behaviour : Behaviour} {s s' s₁ : Server} {t c call : Nat} {job job' : Job} {a : Action}
  {x : Connection}

def Engaged (s : Server) : Prop :=
  ∀ c ∈ s.registry, ∃ x, s.connections[c]? = some x ∧ x.Engaged

theorem Accepts.engaged (ha : s.Accepts a s' c) (h : s.Sound) (ht : Turn behaviour s a s') :
    ∃ x, s'.connections[c]? = some x ∧ x.Engaged := by
  obtain ⟨t, l, -, hjob, hdone⟩ := ha
  rcases ht.task h hjob rfl with ⟨hsame, -⟩ | ⟨s₁, job', hw, rfl⟩
  · cases hsame.symm.trans hdone
  · obtain ⟨x, hx, hunheard⟩ := h.fits hjob
    obtain ⟨-, y, hy, -, ⟨hconns, -, -⟩ | ⟨-, -, rfl⟩⟩ := hw.of_registering
    · obtain rfl := Option.some.inj (hx.symm.trans hy)
      refine ⟨x.listen.1, ?_, hunheard.engaged (h.connections hx)⟩
      simp only [moveTask, hconns]
      exact (getElem?_set_eq_some hx).mpr (.inl ⟨rfl, rfl⟩)
    · cases (hw.moved_job hjob).symm.trans hdone

theorem Engaged.turn (h : s.Engaged) (hs : s.Sound) (htrail : s.Trailed)
    (ht : Turn behaviour s a s') : s'.Engaged := by
  intro c hc
  rcases (ht.amends hs htrail).added hc with hold | ha
  · obtain ⟨x, hx, hengaged⟩ := h c hold
    obtain ⟨x', hx', hpath⟩ := ht.flows.onward hx
    refine ⟨x', hx', (hpath.keeps (P := fun y => y.Sound ∧ y.Engaged)
      ⟨hs.connections hx, hengaged⟩ fun hy hturn => ?_).2⟩
    exact ⟨hy.1.turn hturn, hy.2.turn hy.1 hturn⟩
  · exact ha.engaged hs ht

theorem engaged_of_reachable (h : Reachable behaviour s) : s.Engaged := by
  induction h with
  | new config => exact nofun
  | step a hreach hs ih =>
    have hsound := sound_of_reachable hreach
    exact ih.turn hsound (trailed_of_reachable hreach) (hsound.turn_of_step hs)

theorem Sound.awaited_of_clearing (h : s.Sound) (ht : s.tasks[t]? = some job)
    (hj : job.isClearing = true) (ha : s.awaited? job = some (c, call)) :
    c ∈ s.registry ∧ ∃ x p, s.connections[c]? = some x ∧ x.calls[call]? = some (.close p) := by
  have closes {place call' : Nat} (hc : s.Closes place call')
      (hp : s.registry[place]?.map (·, call') = some (c, call)) :
      c ∈ s.registry ∧ ∃ x p, s.connections[c]? = some x ∧ x.calls[call]? = some (.close p) := by
    obtain ⟨d, x, p, hd, hx, hcall⟩ := hc
    rw [hd] at hp
    obtain ⟨rfl, rfl⟩ := Prod.mk.inj (Option.some.inj hp)
    exact ⟨List.mem_of_getElem? hd, x, p, hx, hcall⟩
  match job, h.fits ht with
  | .reap _ (some (_, _)), hc | .reaper _ _ (some (_, some (_, _))), hc => exact closes hc ha
  | .closeAll _ _ (some (_, _)), hc => exact closes hc.1 ha
  | .reap _ none, _ | .reaper _ _ none, _ | .reaper _ _ (some (_, none)), _ | .stopReaper .., _
  | .closeAll _ _ none, _ => cases ha
  | .accept .., _ | .register .., _ | .refuse .., _ | .broadcast .., _ | .sendTo .., _
  | .send .., _ | .close .., _ | .count, _ | .list, _ | .done _, _ | .crashed, _ => cases hj

theorem Engaged.uncrashed (h : s.Engaged) (hs : s.Sound) (ht : s.tasks[t]? = some job)
    (hj : job.isClearing = true) (ha : s.awaited? job = some (c, call)) : ¬ s.Crashes c call := by
  obtain ⟨hc, -⟩ := hs.awaited_of_clearing ht hj ha
  obtain ⟨x, hx, hengaged⟩ := h c hc
  rw [crashes_iff]
  rintro ⟨y, hy, hcrashed⟩
  obtain rfl := Option.some.inj (hx.symm.trans hy)
  exact hengaged.intact call hcrashed

theorem uncrashed_of_clearing (hreach : Reachable behaviour s) (ht : s.tasks[t]? = some job)
    (hj : job.isClearing = true) (ha : s.awaited? job = some (c, call)) : ¬ s.Crashes c call :=
  (engaged_of_reachable hreach).uncrashed (sound_of_reachable hreach) ht hj ha

theorem Cleared.feed {closing : Option (Nat × Nat)} {more : Nat}
    (h : s.Cleared t closing s₁ more) : s₁.feed = s.feed := by
  cases h <;> rfl

theorem Work.feed_of_clearing (hw : Work s t job s₁ job') (hj : job.isClearing = true) :
    s₁.feed = s.feed := by
  cases hw with
  | sweepNext _ _ hs | sweepEnd _ _ hs => exact hs.feed
  | @closeEnd listener => cases listener <;> rfl
  | enlist | refuse => cases hj
  | _ => rfl

theorem Work.clears (hw : Work s t job s₁ job') (hj : job.isClearing = true)
    (unraised : ∀ {c call : Nat}, s.awaited? job = some (c, call) → ¬ s.Crashes c call) :
    job'.isClearing = true ∨ ∃ reply, job' = .done reply := by
  cases hw with
  | sweepNext sweeper => cases sweeper <;> exact .inl rfl
  | sweepEnd sweeper =>
    cases sweeper with
    | caller => exact .inr ⟨_, rfl⟩
    | reaper => exact .inl rfl
  | tick | reaperStopped | reaperCrashed | closeNext => exact .inl rfl
  | reaperEnd | closeEnd => exact .inr ⟨_, rfl⟩
  | crash ha hc => exact absurd hc (unraised ha)
  | _ => cases hj

theorem Work.leaves_cleared (hw : Work s t job s₁ job') (hj : job.isClearing = true)
    (unraised : ∀ {c call : Nat}, s.awaited? job = some (c, call) → ¬ s.Crashes c call)
    (before : job.standing ≠ .outside) (after : job'.standing = .outside) :
    (job.isReaping = true → s₁.Clean) ∧ (job.isShutdown = true → s₁.registry = []) := by
  cases hw with
  | sweepNext sweeper => exact absurd after (sweeper.standing _ _)
  | sweepEnd sweeper _ _ clean =>
    refine ⟨fun _ => clean, fun h => ?_⟩
    cases sweeper <;> cases h
  | @closeEnd listener => exact ⟨nofun, fun _ => by cases listener <;> rfl⟩
  | crash ha hc => exact absurd hc (unraised ha)
  | reaperEnd | reaperStopped | reaperCrashed => exact absurd rfl before
  | tick | closeNext => cases after
  | _ => cases hj

theorem clearing_run (hreach : Reachable behaviour s) (ht : s.tasks[t]? = some job)
    (hj : job.isClearing = true) (run : Run behaviour s s') :
    ∃ job', s'.tasks[t]? = some job' ∧ (job'.isClearing = true ∨ ∃ reply, job' = .done reply) := by
  induction run with
  | refl => exact ⟨job, ht, .inl hj⟩
  | @tail s₁ s₂ run hn ih =>
    obtain ⟨job₁, ht₁, hjob₁⟩ := ih
    obtain ⟨a, hs⟩ := hn
    have hreach₁ := Run.reachable run hreach
    have hsound := sound_of_reachable hreach₁
    by_cases ha : a.task? = some t
    · obtain ⟨s₃, job₂, hw, rfl⟩ := work_of_step hsound hs ha ht₁
      refine ⟨job₂, hw.moved_job ht₁, ?_⟩
      rcases hjob₁ with hclears | ⟨reply, rfl⟩
      · exact hw.clears hclears fun ha => uncrashed_of_clearing hreach₁ ht₁ hclears ha
      · exact absurd rfl hw.undone
    · obtain ⟨job₂, ht₂, hkept, -⟩ := (hsound.turn_of_step hs).kept hsound ha ht₁
      refine ⟨job₂, ht₂, ?_⟩
      cases hkept with
      | same => exact hjob₁
      | cancelled => exact .inl rfl

theorem clearing_calls_no_observer (reachable : Reachable behaviour s) :
    (∀ c ∈ s.registry, ∃ x, s.connections[c]? = some x ∧ x.started = 1) ∧
      ∀ t job, s.tasks[t]? = some job → job.isClearing = true →
        (∀ c call, s.awaited? job = some (c, call) →
          c ∈ s.registry ∧ ¬ s.Crashes c call ∧
            (∀ failure, s.Returns c call failure → s.isAborted = false →
              ∃ s', s.step behaviour (.resume t) = some s') ∧
            ∃ x p, s.connections[c]? = some x ∧ x.calls[call]? = some (.close p) ∧
              ∀ act s', act.promptCall? = some call → s.step behaviour (.on c act) = some s' →
                s'.feed = s.feed ∧ (act = .finishClose call →
                  x.phase = .disconnected ∧ x.receiver.hasEnded = true)) ∧
        (∀ a s', a.task? = some t → s.step behaviour a = some s' → s'.feed = s.feed) ∧
        (∀ a s', s.lock.isHeldBy t = true → s.step behaviour a = some s' →
          s'.lock.isHeldBy t = false →
            (job.isReaping = true → s'.Clean) ∧ (job.isShutdown = true → s'.registry = [])) ∧
        ∀ s', Run behaviour s s' →
          ∃ job', s'.tasks[t]? = some job' ∧
            (job'.isClearing = true ∨ ∃ reply, job' = .done reply) := by
  have hsound := sound_of_reachable reachable
  refine ⟨fun c hc => ?_, fun t job ht hj => ⟨?_, ?_, ?_, fun s' run => ?_⟩⟩
  · obtain ⟨x, hx, hengaged⟩ := engaged_of_reachable reachable c hc
    exact ⟨x, hx, hengaged.started⟩
  · intro c call ha
    obtain ⟨hc, x, p, hx, hcall⟩ := hsound.awaited_of_clearing ht hj ha
    refine ⟨hc, uncrashed_of_clearing reachable ht hj ha, ?_, x, p, hx, hcall, ?_⟩
    · intro failure ⟨y, hy, he⟩ present
      obtain ⟨s', hs'⟩ := Option.isSome_iff_exists.mp (hsound.caller_goes_on ht ha hy he)
      exact ⟨s', by simp [step, present, hs']⟩
    · intro act s' hact hs
      obtain ⟨y, hy, hengaged⟩ := engaged_of_reachable reachable c hc
      obtain rfl := Option.some.inj (hx.symm.trans hy)
      obtain ⟨z, z', feed, hz, hstep, rfl⟩ := on_of_step hs
      obtain rfl := Option.some.inj (hx.symm.trans hz)
      exact hengaged.call_step (hsound.connections hx) hact hstep
  · intro a s' ha hs
    obtain ⟨s₁, job', hw, rfl⟩ := work_of_step hsound hs ha ht
    exact hw.feed_of_clearing hj
  · intro a s' held hs freed
    obtain ⟨-, s₁, job', hw, rfl, after⟩ := (Tenure.start held).releases reachable ht hs freed
    exact hw.leaves_cleared hj (fun ha => uncrashed_of_clearing reachable ht hj ha)
      (hsound.inside ht held) after
  · exact clearing_run reachable ht hj run

def lastWords : List Action :=
  opening ++ [.resume 0, .subscribe { filter := some "127.0.0.1", onDisconnect := some 0 },
    .begin .shutdown, .resume 1, .on 0 (.obtainClosing 1), .on 0 (.halt 1 .halted), .on 0 .look]

theorem shutdown_outlives_panic :
    ∃ s s' : Server, Reachable fragile s ∧
      s.tasks[1]? = some (.closeAll (some 0) none (some (0, 1))) ∧
      (s.connections[0]?.map Connection.receiver) = some (.ended .crashed) ∧
      s.step fragile (.on 0 (.finishClose 1)) = some s' ∧ s'.feed = s.feed ∧
      ∃ s₁, s'.step fragile (.resume 1) = some s₁ ∧ s₁.registry = [] := by
  have panics : (steps? fragile lastWords { config := {} }).any (fun s =>
      (s.tasks[1]? = some (.closeAll (some 0) none (some (0, 1))) ∧
        s.awaited? (.closeAll (some 0) none (some (0, 1))) = some (0, 1) ∧
        (s.connections[0]?.map Connection.receiver) = some (.ended .crashed)) ∧
      (s.step fragile (.on 0 (.finishClose 1))).any (fun s' =>
        (s'.tasks[1]? = some (.closeAll (some 0) none (some (0, 1))) ∧ s'.lock.isHeldBy 1) ∧
          (s'.step fragile (.resume 1)).any fun s₁ => !s₁.lock.isHeldBy 1)) = true := by
    decide +kernel
  obtain ⟨s, hrun, hs⟩ := (Option.any_eq_true _ _).mp panics
  obtain ⟨⟨ht, awaits, crashed⟩, hs⟩ := of_decide_eq_true hs
  obtain ⟨s', hstep, hs'⟩ := (Option.any_eq_true _ _).mp hs
  obtain ⟨⟨ht', held⟩, hs'⟩ := of_decide_eq_true hs'
  obtain ⟨s₁, hstep', freed⟩ := (Option.any_eq_true _ _).mp hs'
  have reachable : Reachable fragile s := reachable_of_steps lastWords (.new {}) hrun
  obtain ⟨-, clearing⟩ := clearing_calls_no_observer reachable
  obtain ⟨-, -, -, x, p, -, -, quiet⟩ := (clearing 1 _ ht rfl).1 0 1 awaits
  obtain ⟨-, clearing'⟩ := clearing_calls_no_observer (.step _ reachable hstep)
  obtain ⟨-, -, leaves, -⟩ := clearing' 1 _ ht' rfl
  exact ⟨s, s', reachable, ht, crashed, hstep, (quiet _ s' rfl hstep).1, s₁, hstep',
    (leaves _ s₁ held hstep' (by simpa using freed)).2 rfl⟩

end Server

end Fanout
