import Fanout.Proofs.Server.Conservation
import Fanout.Proofs.Server.Release

namespace Fanout

def Job.isSweeping : Job → Bool
  | .reap _ _ => true
  | .reaper _ _ (some _) => true
  | _ => false

theorem eraseIdx_eq_filter {xs : List Nat} {i x : Nat} (h : xs.Nodup) (hi : xs[i]? = some x) :
    xs.eraseIdx i = xs.filter (· != x) := by
  obtain ⟨hlt, rfl⟩ := List.getElem?_eq_some_iff.mp hi
  rw [← h.erase_getElem i hlt, h.erase_eq_filter]

namespace Server

inductive Sweeper.Becomes : Sweeper → Sweeper → Prop
  | same (sweeper : Sweeper) : Becomes sweeper sweeper
  | cancelled (cancelled : Bool) (next : Nat) :
      Becomes (.reaper cancelled next) (.reaper true next)

structure Leaves (registry : List Nat) (calls : List (Nat × Nat)) (left : List Nat) : Prop where
  eq_filter : left = registry.filter fun c => c ∉ calls.map Prod.fst
  length : calls.length + left.length = registry.length

def Settles (s : Server) (p : Nat × Nat) : Prop :=
  ∃ x, s.connections[p.1]? = some x ∧ x.Settles p.2

def Settled (s : Server) (p : Nat × Nat) : Prop :=
  s.Settles p ∧ ∃ failure, s.Returns p.1 p.2 failure

/-- How far a sweep has come: it waits for the last of its closes, and has evicted what the others
have closed. -/
inductive Evicts (registry : List Nat) (sweeper : Sweeper) :
    List (Nat × Nat) → Server → Job → Prop
  | queued {s : Server} {sweeper' : Sweeper} (hb : sweeper.Becomes sweeper')
      (hreg : s.registry = registry) : Evicts registry sweeper [] s (sweeper'.job 0 none)
  | closing {s : Server} {sweeper' : Sweeper} {closed : List (Nat × Nat)} {place c call : Nat}
      (hb : sweeper.Becomes sweeper') (hleft : Leaves registry closed s.registry)
      (hclosed : ∀ p ∈ closed, s.Settled p) (hp : s.registry[place]? = some c)
      (hcall : s.Settles (c, call)) :
      Evicts registry sweeper (closed ++ [(c, call)]) s
        (sweeper'.job closed.length (some (place, call)))

variable {behaviour : Behaviour} {s s' s₁ s₂ : Server} {t c call place more evicted : Nat}
  {job job' : Job} {a : Action} {x : Connection} {calls closed : List (Nat × Nat)}
  {p : Nat × Nat} {sweeper sweeper' : Sweeper} {closing : Option (Nat × Nat)}
  {registry left : List Nat} {failure : Failure}

theorem Sweeper.job_inj {evicted' : Nat} {closing' : Option (Nat × Nat)}
    (h : sweeper.job evicted closing = sweeper'.job evicted' closing') :
    sweeper = sweeper' ∧ evicted = evicted' ∧ closing = closing' := by
  cases sweeper <;> cases sweeper' <;> simp_all [Sweeper.job]

theorem Sweeper.isSweeping (sweeper : Sweeper) (evicted : Nat) (closing : Option (Nat × Nat)) :
    (sweeper.job evicted closing).isSweeping = true := by
  cases sweeper <;> rfl

theorem Sweeper.standing (sweeper : Sweeper) (evicted : Nat) (closing : Option (Nat × Nat)) :
    (sweeper.job evicted closing).standing ≠ .outside := by
  cases sweeper <;> cases closing <;> simp [Sweeper.job, Job.standing]

theorem Sweeper.awaited?_job (s : Server) (sweeper : Sweeper) (evicted : Nat) :
    s.awaited? (sweeper.job evicted none) = none ∧
      ∀ place call, s.awaited? (sweeper.job evicted (some (place, call))) =
        s.registry[place]?.map (·, call) := by
  cases sweeper <;> exact ⟨rfl, fun _ _ => rfl⟩

theorem Sweeper.Becomes.trans {sweeper'' : Sweeper} (h : sweeper.Becomes sweeper')
    (h' : sweeper'.Becomes sweeper'') : sweeper.Becomes sweeper'' := by
  cases h' with
  | same => exact h
  | cancelled cancelled next =>
    cases h with
    | same | cancelled => exact .cancelled _ next

theorem Sweeper.becomes_of_kept (h : (sweeper.job evicted closing).Kept job') :
    ∃ sweeper', sweeper.Becomes sweeper' ∧ job' = sweeper'.job evicted closing := by
  cases sweeper with
  | caller =>
    obtain rfl := h.eq rfl
    exact ⟨.caller, .same _, rfl⟩
  | reaper cancelled next =>
    cases h with
    | same => exact ⟨.reaper cancelled next, .same _, rfl⟩
    | cancelled => exact ⟨.reaper true next, .cancelled cancelled next, rfl⟩

theorem Settles.turn (h : s.Settles p) (ht : Turn behaviour s a s') : s'.Settles p := by
  obtain ⟨x, hx, hsettles⟩ := h
  obtain ⟨x', hx', hpath⟩ := ht.flows.onward hx
  exact ⟨x', hx', hpath.keeps hsettles Connection.Settles.turn⟩

theorem Settled.turn (h : s.Settled p) (ht : Turn behaviour s a s') : s'.Settled p := by
  obtain ⟨hsettles, failure, hr⟩ := h
  exact ⟨hsettles.turn ht, failure, hr.turn ht⟩

theorem Settles.isConnected (h : s.Settles p) : s.isConnected p.1 = false := by
  obtain ⟨x, hx, hsettles⟩ := h
  exact (isConnected_eq_false hx).mpr hsettles.1

theorem Settles.uncrashed (h : s.Settles (c, call)) : ¬ s.Crashes c call := by
  intro ⟨x, hx, he⟩
  obtain ⟨y, hy, hsettles⟩ := h
  obtain rfl := Option.some.inj (hx.symm.trans hy)
  exact hsettles.not_crashed he

theorem settles_begun (hx : s.connections[c]? = some x) (hd : x.phase = .disconnected) :
    (s.setConnection c x.beginClose).Settles (c, x.calls.length) :=
  ⟨x.beginClose, (getElem?_set_eq_some hx).mpr (.inl ⟨rfl, rfl⟩), Connection.settles_beginClose hd⟩

namespace Leaves

theorem start (registry : List Nat) : Leaves registry [] registry where
  eq_filter := by simp
  length := Nat.zero_add _

theorem evict (h : Leaves registry closed left) (hnodup : registry.Nodup)
    (hp : left[place]? = some c) (call : Nat) :
    Leaves registry (closed ++ [(c, call)]) (left.eraseIdx place) where
  eq_filter := by
    have hnodup' : left.Nodup := h.eq_filter ▸ hnodup.filter _
    rw [eraseIdx_eq_filter hnodup' hp, h.eq_filter, List.filter_filter]
    refine List.filter_congr fun d _ => ?_
    rw [Bool.eq_iff_iff]
    simp [and_comm, not_or]
  length := by
    have := h.length
    have := (List.getElem?_eq_some_iff.mp hp).1
    rw [List.length_append, List.length_singleton, List.length_eraseIdx_of_lt this]
    omega

theorem mem_iff (h : Leaves registry calls left) (hc : c ∈ registry) :
    c ∈ left ↔ c ∉ calls.map Prod.fst := by
  rw [h.eq_filter, List.mem_filter, decide_eq_true_iff]
  exact and_iff_right hc

end Leaves

theorem mem_concat {q : Nat × Nat} (h : p ∈ closed ++ [q]) : p ∈ closed ∨ p = q := by
  simpa using h

namespace Evicts

theorem isSweeping (h : Evicts registry sweeper calls s job) : job.isSweeping = true := by
  cases h with
  | queued | closing => exact Sweeper.isSweeping _ _ _

theorem standing (h : Evicts registry sweeper calls s job) : job.standing ≠ .outside := by
  cases h with
  | queued | closing => exact Sweeper.standing _ _ _

theorem settles (h : Evicts registry sweeper calls s job) : ∀ p ∈ calls, s.Settles p := by
  cases h with
  | queued => exact nofun
  | closing _ _ hclosed _ hcall =>
    intro p hp
    rcases mem_concat hp with hp | rfl
    · exact (hclosed p hp).1
    · exact hcall

theorem length_le (h : Evicts registry sweeper calls s job) :
    calls.length ≤ registry.length := by
  cases h with
  | queued => exact Nat.zero_le _
  | closing _ hleft _ hp =>
    have := hleft.length
    have := (List.getElem?_eq_some_iff.mp hp).1
    rw [List.length_append, List.length_singleton]
    omega

theorem other (h : Evicts registry sweeper calls s job) (ht : Turn behaviour s a s')
    (hreg : s'.registry = s.registry) (hkept : job.Kept job') :
    Evicts registry sweeper calls s' job' := by
  cases h with
  | queued hb hreg' =>
    obtain ⟨sweeper', hb', rfl⟩ := Sweeper.becomes_of_kept hkept
    exact .queued (hb.trans hb') (hreg.trans hreg')
  | closing hb hleft hclosed hp hcall =>
    obtain ⟨sweeper', hb', rfl⟩ := Sweeper.becomes_of_kept hkept
    exact .closing (hb.trans hb') (hreg ▸ hleft) (fun p hp => (hclosed p hp).turn ht) (hreg ▸ hp)
      (hcall.turn ht)

theorem settles_awaited (h : Evicts registry sweeper calls s job)
    (ha : s.awaited? job = some (c, call)) : s.Settles (c, call) := by
  cases h with
  | queued => cases ((Sweeper.awaited?_job s _ 0).1).symm.trans ha
  | closing _ _ _ hp hcall =>
    rw [(Sweeper.awaited?_job s _ _).2, hp] at ha
    obtain ⟨rfl, rfl⟩ := Prod.mk.inj (Option.some.inj ha)
    exact hcall

theorem cleared (h : Evicts registry sweeper calls s (sweeper'.job evicted closing))
    (hnodup : registry.Nodup) (hs : s.Cleared t closing s₁ more) :
    sweeper.Becomes sweeper' ∧ evicted + more = calls.length ∧
      Leaves registry calls s₁.registry ∧ ∀ p ∈ calls, s.Settled p := by
  generalize hj : sweeper'.job evicted closing = job at h
  cases h with
  | queued hb hreg =>
    obtain ⟨rfl, rfl, rfl⟩ := Sweeper.job_inj hj
    cases hs
    exact ⟨hb, rfl, hreg ▸ .start _, nofun⟩
  | closing hb hleft hclosed hp hcall =>
    obtain ⟨rfl, rfl, rfl⟩ := Sweeper.job_inj hj
    cases hs with
    | evict hp' hr =>
      obtain rfl := Option.some.inj (hp.symm.trans hp')
      refine ⟨hb, by simp, hleft.evict hnodup hp _, fun p hp => ?_⟩
      rcases mem_concat hp with hp | rfl
      · exact hclosed p hp
      · exact ⟨hcall, _, hr⟩

theorem advance (h : Evicts registry sweeper calls s job) (behaviour : Behaviour)
    (hnodup : registry.Nodup) (ht : s.tasks[t]? = some job) (hw : Work s t job s₁ job') :
    Evicts registry sweeper (calls ++ begun s (s₁.moveTask t job job')) (s₁.moveTask t job job')
        job' ∨
      Leaves registry calls s₁.registry ∧ (∀ p ∈ calls, s.Settled p) ∧
        s₁.connections = s.connections ∧ (∀ c ∈ s₁.registry, s₁.isConnected c = true) ∧
        ∃ sweeper', sweeper.Becomes sweeper' ∧ job' = sweeper'.rest calls.length := by
  have hturn : Turn behaviour s (.resume t) (s₁.moveTask t job job') :=
    .work rfl ⟨job, s₁, job', ht, hw, rfl⟩
  cases hw with
  | @sweepNext _ s₂ _ _ c x sweeper' evicted hs hp hx hd =>
    obtain ⟨hb, hcount, hleft, hclosed⟩ := h.cleared hnodup hs
    have hconns := hs.frame.2.2
    have hset : (s₂.setConnection c x.beginClose).connections =
        s.connections.set c x.beginClose := by
      simp only [setConnection, hconns]
    refine .inl ?_
    rw [hcount] at hturn ⊢
    rw [begun_moveTask, begun_set hx hset (List.length_append ..)]
    exact .closing hb hleft (fun p hp => (hclosed p hp).turn hturn) hp
      (settles_begun (hconns ▸ hx) hd)
  | sweepEnd sweeper' evicted hs clean =>
    obtain ⟨hb, hcount, hleft, hclosed⟩ := h.cleared hnodup hs
    exact .inr ⟨hleft, hclosed, hs.frame.2.2, clean, sweeper', hb, by rw [hcount]⟩
  | crash ha hc => exact absurd hc (h.settles_awaited ha).uncrashed
  | _ => cases h.isSweeping

theorem unhindered (h : Evicts registry sweeper calls s job) (ht : s.tasks[t]? = some job) :
    s.Unhindered t := by
  intro other c call hu ha
  obtain rfl := Option.some.inj (ht.symm.trans hu)
  obtain ⟨x, hx, hphase, p, hi, -⟩ := h.settles_awaited ha
  exact ⟨x, hx, .close hi hphase⟩

theorem takes_out (h : Evicts registry sweeper calls s (sweeper'.job evicted closing))
    (hs : s.Cleared t closing s₁ more) :
    calls = [] ∧ s₁.registry = s.registry ∨
      ∃ closed place c call failure, calls = closed ++ [(c, call)] ∧
        s.registry[place]? = some c ∧ s.Returns c call failure ∧
        s₁.registry = s.registry.eraseIdx place := by
  generalize hj : sweeper'.job evicted closing = job at h
  cases h with
  | queued =>
    obtain ⟨-, -, rfl⟩ := Sweeper.job_inj hj
    cases hs
    exact .inl ⟨rfl, rfl⟩
  | closing _ _ _ hp =>
    obtain ⟨-, -, rfl⟩ := Sweeper.job_inj hj
    cases hs with
    | evict hp' hr =>
      obtain rfl := Option.some.inj (hp.symm.trans hp')
      exact .inr ⟨_, _, _, _, _, rfl, hp, hr, rfl⟩

theorem awaits {closed : List (Nat × Nat)} (h : Evicts registry sweeper calls s job)
    (hcalls : calls = closed ++ [(c, call)]) : s.awaited? job = some (c, call) := by
  cases h with
  | queued => simp at hcalls
  | closing _ _ _ hp =>
    obtain ⟨-, heq⟩ := List.append_inj' hcalls rfl
    obtain ⟨rfl, rfl⟩ := Prod.mk.inj (List.singleton_inj.mp heq)
    rw [(Sweeper.awaited?_job s _ _).2, hp]
    rfl

theorem removes (h : Evicts registry sweeper calls s job) (hw : Work s t job s₁ job') :
    calls = [] ∧ s₁.registry = s.registry ∨
      ∃ closed place c call failure, calls = closed ++ [(c, call)] ∧
        s.registry[place]? = some c ∧ s.Returns c call failure ∧
        s₁.registry = s.registry.eraseIdx place := by
  cases hw with
  | sweepNext _ _ hs | sweepEnd _ _ hs =>
    have hout := h.takes_out hs
    exact hout
  | crash ha hc => exact absurd hc (h.settles_awaited ha).uncrashed
  | _ => cases h.isSweeping

end Evicts

theorem evicts_of_tenure (hreach : Reachable behaviour s)
    (waits : s.tasks[t]? = some (sweeper.job 0 none)) (h : Tenure behaviour t s calls s₁) :
    ∃ job, s₁.tasks[t]? = some job ∧ Evicts s.registry sweeper calls s₁ job := by
  have hnodup := registry_nodup hreach
  refine h.keeps (P := Evicts s.registry sweeper) hreach waits (.queued (.same _) rfl) ?_ ?_
  · intro _ _ _ _ _ _ _ hevicts hturn hreg hkept
    exact hevicts.other hturn hreg hkept
  · intro _ _ _ _ _ _ ht hevicts hw _ hholds
    rcases hevicts.advance behaviour hnodup ht hw with hnext | ⟨-, -, -, -, sweeper', -, rfl⟩
    · exact hnext
    · exact absurd (by cases sweeper' <;> rfl) hholds

def Clean (s : Server) : Prop :=
  ∀ c ∈ s.registry, s.isConnected c = true

def Upholds (behaviour : Behaviour) (s s' : Server) : Prop :=
  ∃ a, s.step behaviour a = some s' ∧ ∀ c, s.isConnected c = true → s'.isConnected c = true

def Upheld (behaviour : Behaviour) : Server → Server → Prop :=
  Relation.ReflTransGen (Upholds behaviour)

theorem Accepts.isConnected (ha : s.Accepts a s' c) (h : s.Sound) : s.isConnected c = true := by
  obtain ⟨t, l, -, ht, -⟩ := ha
  obtain ⟨x, hx, hunheard⟩ := h.fits ht
  simp [Server.isConnected, hx, Connection.isConnected, hunheard.phase]

theorem Upheld.clean (h : Upheld behaviour s s') (hreach : Reachable behaviour s)
    (hclean : s.Clean) : Reachable behaviour s' ∧ s'.Clean := by
  induction h with
  | refl => exact ⟨hreach, hclean⟩
  | tail _ hn ih =>
    obtain ⟨a, hs, hupheld⟩ := hn
    obtain ⟨hreach₁, hclean₁⟩ := ih
    have hsound := sound_of_reachable hreach₁
    have hamends := (hsound.turn_of_step hs).amends hsound (trailed_of_reachable hreach₁)
    refine ⟨.step a hreach₁ hs, fun c hc => hupheld c ?_⟩
    rcases hamends.added hc with hold | ha
    · exact hclean₁ c hold
    · exact ha.isConnected hsound

theorem Clean.reap (h : s.Clean) (ht : s.tasks[t]? = some (.reap 0 none))
    (held : s.lock.isHeldBy t = true) (present : s.isAborted = false) :
    s.step behaviour (.resume t) = some (s.finish t (.number 0)) := by
  have hnone : (s.registry.findIdx? fun c => !s.isConnected c) = none :=
    List.findIdx?_eq_none_iff.mpr fun c hc => by simp [h c hc]
  simp [step, present, resume, ht, awaited?, proceed, held, reapFrom, sweep, hnone]

structure Swept (s : Server) (calls : List (Nat × Nat)) (s' : Server) : Prop where
  registry : s'.registry = s.registry.filter s'.isConnected
  spared : ∀ c ∈ s.registry, c ∈ s'.registry ↔ c ∉ calls.map Prod.fst
  closed : ∀ p ∈ calls, s'.Settled p
  count : calls.length + s'.registry.length = s.registry.length

theorem Leaves.swept (h : Leaves s.registry calls s'.registry) (hclosed : ∀ p ∈ calls, s'.Settled p)
    (hclean : s'.Clean) : s.Swept calls s' where
  registry := by
    refine h.eq_filter.trans (List.filter_congr fun c hc => ?_)
    rw [Bool.eq_iff_iff, decide_eq_true_iff, ← h.mem_iff hc]
    refine ⟨hclean c, fun hup => ?_⟩
    rw [h.mem_iff hc, List.mem_map]
    rintro ⟨p, hp, rfl⟩
    exact absurd hup (by simp [(hclosed p hp).1.isConnected])
  spared _ hc := h.mem_iff hc
  closed := hclosed
  count := h.length

theorem sweep_evicts_exactly_the_dead (sweeper : Sweeper) (reachable : Reachable behaviour s)
    (waits : s.tasks[t]? = some (sweeper.job 0 none)) (tenure : Tenure behaviour t s calls s₁) :
    calls.length ≤ s.registry.length ∧ (∀ p ∈ calls, s₁.Settles p) ∧
      (∀ a s₂, s₁.step behaviour a = some s₂ → a.task? ≠ some t → s₂.registry = s₁.registry) ∧
      (∀ a s₂, s₁.step behaviour a = some s₂ → a.task? = some t →
        calls = [] ∧ s₂.registry = s₁.registry ∨
          ∃ closed place c call failure, calls = closed ++ [(c, call)] ∧
            s₁.registry[place]? = some c ∧ s₁.Returns c call failure ∧
            s₂.registry = s₁.registry.eraseIdx place) ∧
      (∀ closed c call failure, calls = closed ++ [(c, call)] → s₁.Returns c call failure →
        s₁.isAborted = false → ∃ s₂, s₁.step behaviour (.resume t) = some s₂) ∧
      (∀ a s₂, s₁.step behaviour a = some s₂ → s₂.lock.isHeldBy t = false →
        (∃ sweeper', sweeper.Becomes sweeper' ∧
          s₂.tasks[t]? = some (sweeper'.rest calls.length)) ∧
        s.Swept calls s₂ ∧
        ∀ s₃ u, Upheld behaviour s₂ s₃ → s₃.tasks[u]? = some (.reap 0 none) →
          s₃.lock.isHeldBy u = true → s₃.isAborted = false →
          s₃.step behaviour (.resume u) = some (s₃.finish u (.number 0))) ∧
      (s₁.isAborted = false →
        ∃ later s₂ s₃, Tenure behaviour t s₁ later s₂ ∧
          s₂.step behaviour (.resume t) = some s₃ ∧ s₃.lock.isHeldBy t = false) := by
  have hreach₁ := tenure.run.reachable reachable
  have hsound₁ := sound_of_reachable hreach₁
  have hnodup := registry_nodup reachable
  obtain ⟨job, ht, hevicts⟩ := evicts_of_tenure reachable waits tenure
  refine ⟨hevicts.length_le, hevicts.settles, ?_, ?_, ?_, ?_, ?_⟩
  · intro a s₂ hs ha
    obtain ⟨_, -, -, hheld⟩ := (hsound₁.turn_of_step hs).kept hsound₁ ha ht
    exact (hheld tenure.held).1
  · intro a s₂ hs ha
    obtain ⟨s₃, job', hw, rfl⟩ := work_of_step hsound₁ hs ha ht
    have hout := hevicts.removes hw
    exact hout
  · intro closed c call failure hcalls hr present
    obtain ⟨x, hx, he⟩ := hr
    obtain ⟨s₂, hs₂⟩ := Option.isSome_iff_exists.mp
      (hsound₁.caller_goes_on ht (hevicts.awaits hcalls) hx he)
    exact ⟨s₂, by simp [step, present, hs₂]⟩
  · intro a s₂ hs freed
    have hturn := hsound₁.turn_of_step hs
    obtain ⟨ha, s₃, job', hw, rfl, houtside⟩ := tenure.releases reachable ht hs freed
    rcases hevicts.advance behaviour hnodup ht hw with
      hnext | ⟨hleft, hclosed, -, hclean, sweeper', hb, rfl⟩
    · exact absurd houtside hnext.standing
    · refine ⟨⟨sweeper', hb, hw.moved_job ht⟩,
        Leaves.swept hleft (fun p hp => (hclosed p hp).turn hturn) hclean, ?_⟩
      intro s₄ u hupheld hu held present
      exact (hupheld.clean (.step a hreach₁ hs) hclean).2.reap hu held present
  · intro present
    refine tenure.ends s.registry.length reachable present ?_ ?_
    · intro _ _ htenure
      obtain ⟨job', ht', hevicts'⟩ := evicts_of_tenure reachable waits htenure
      exact hevicts'.unhindered ht'
    · intro _ _ htenure
      obtain ⟨_, -, hevicts'⟩ := evicts_of_tenure reachable waits htenure
      exact hevicts'.length_le

def thinning : List Action :=
  opening ++
    [.resume 0, .begin (.accept 0), .connect 0 (visitorOn 10), .acceptPeer 1, .resume 1,
      .begin (.accept 0), .connect 0 (visitorOn 11), .acceptPeer 2, .resume 2,
      .on 0 (.finish .finished), .on 0 .look, .on 0 .read, .begin .reap]

theorem reap_evicts_late_leaver :
    ∃ s s₁ s₂ s₃, Reachable quietObservers s ∧ s.registry = [0, 1, 2] ∧
      Tenure quietObservers 3 s [(0, 1), (1, 1)] s₁ ∧ s₁.Returns 0 1 (some (.io "gone")) ∧
      s₁.step quietObservers (.resume 3) = some s₂ ∧ s.Swept [(0, 1), (1, 1)] s₂ ∧
      s₂.registry = [2] ∧ s₂.tasks[3]? = some (.done (.number 2)) ∧
      s₂.step quietObservers (.begin .reap) = some s₃ ∧
      s₃.step quietObservers (.resume 4) = some (s₃.finish 4 (.number 0)) := by
  obtain ⟨reachable, tenure⟩ := tenure_of_steps quietObservers {} 3 thinning
    [.resume 3, .on 1 (.finish .finished), .on 1 .look, .on 1 .read, .on 0 (.obtainClosing 1),
      .on 0 (.halt 1 (.failed "gone")), .on 0 (.finishClose 1), .resume 3,
      .on 1 (.obtainClosing 1), .on 1 (.halt 1 .halted), .on 1 (.finishClose 1)] rfl rfl rfl
  obtain ⟨-, -, -, -, -, ends, -⟩ :=
    sweep_evicts_exactly_the_dead .caller reachable rfl tenure
  obtain ⟨-, swept, again⟩ := ends (.resume 3) _ rfl rfl
  have nothing := again _ 4 (.single ⟨.begin .reap, rfl, fun _ hup => hup⟩) rfl rfl rfl
  exact ⟨_, _, _, _, reachable, rfl, tenure, ⟨_, rfl, rfl⟩, rfl, swept, rfl, rfl, rfl,
    nothing⟩

end Server

end Fanout
