import Fanout.Proofs.Connection.Fleeting
import Fanout.Proofs.Server.Progress
import Fanout.Proofs.Server.Stopped

namespace Fanout

theorem flatMap_range_eq {α : Type} {n i : Nat} {f : Nat → List α} (hi : i < n)
    (h : ∀ j, j ≠ i → f j = []) : (List.range n).flatMap f = f i := by
  induction n with
  | zero => exact absurd hi (Nat.not_lt_zero i)
  | succ n ih =>
    rw [List.range_succ, List.flatMap_append, List.flatMap_singleton]
    by_cases hin : i = n
    · subst hin
      have hnone : (List.range i).flatMap f = [] :=
        List.flatMap_eq_nil_iff.mpr fun j hj => h j (Nat.ne_of_lt (List.mem_range.mp hj))
      rw [hnone, List.nil_append]
    · rw [ih (by omega), h n (Ne.symm hin), List.append_nil]

namespace Server

variable {behaviour : Behaviour} {s s' s₁ s₂ : Server} {t u c i : Nat} {job job' : Job}
  {a : Action} {x x' : Connection} {call : Call} {calls later made : List (Nat × Nat)}
  {registry : List Nat}

def callsOn (s : Server) (c : Nat) : Nat :=
  (s.connections[c]?.map fun x => x.calls.length).getD 0

def begunOn (s s' : Server) (c : Nat) : List (Nat × Nat) :=
  (List.range' (s.callsOn c) (s'.callsOn c - s.callsOn c)).map (c, ·)

def begun (s s' : Server) : List (Nat × Nat) :=
  (List.range s'.connections.length).flatMap (begunOn s s')

def begunBy (t : Nat) (a : Action) (s s' : Server) : List (Nat × Nat) :=
  if a.task? = some t then begun s s' else []

/-- Task `t` has held the registry ever since `s`, and has begun these calls, earliest first. -/
inductive Tenure (behaviour : Behaviour) (t : Nat) (s : Server) : List (Nat × Nat) → Server → Prop
  | start (held : s.lock.isHeldBy t = true) : Tenure behaviour t s [] s
  | step {calls : List (Nat × Nat)} {s₁ s₂ : Server} {a : Action}
      (h : Tenure behaviour t s calls s₁) (hs : s₁.step behaviour a = some s₂)
      (held : s₂.lock.isHeldBy t = true) :
      Tenure behaviour t s (calls ++ begunBy t a s₁ s₂) s₂

def tenure? (behaviour : Behaviour) (t : Nat) :
    List Action → Server → List (Nat × Nat) → Option (List (Nat × Nat) × Server)
  | [], s, calls => some (calls, s)
  | a :: as, s, calls =>
      (s.step behaviour a).bind fun s' =>
        if s'.lock.isHeldBy t then tenure? behaviour t as s' (calls ++ begunBy t a s s') else none

theorem begunOn_eq_nil (h : s'.callsOn c = s.callsOn c) : begunOn s s' c = [] := by
  simp [begunOn, h]

theorem begun_moveTask (s s₁ : Server) (t : Nat) (job job' : Job) :
    begun s (s₁.moveTask t job job') = begun s s₁ := rfl

theorem begun_set (hx : s.connections[c]? = some x)
    (hc : s'.connections = s.connections.set c x') (hlen : x'.calls.length = x.calls.length + 1) :
    begun s s' = [(c, x.calls.length)] := by
  obtain ⟨hlt, -⟩ := List.getElem?_eq_some_iff.mp hx
  have hx' : s'.connections[c]? = some x' :=
    hc ▸ (getElem?_set_eq_some hx).mpr (.inl ⟨rfl, rfl⟩)
  have others (d : Nat) (hd : d ≠ c) : begunOn s s' d = [] :=
    begunOn_eq_nil (by simp only [callsOn, hc, List.getElem?_set_ne (Ne.symm hd)])
  rw [begun, flatMap_range_eq (by rwa [hc, List.length_set]) others]
  simp [begunOn, callsOn, hx, hx', hlen]

theorem eq_of_attempted {c d : Nat} (attempted : made.map Prod.fst ++ [c] <+: registry)
    (hd : registry[made.length]? = some d) : d = c := by
  obtain ⟨rest, rfl⟩ := attempted
  simpa [eq_comm] using hd

theorem attempted_next {c : Nat} (attempted : made.map Prod.fst <+: registry)
    (hc : registry[made.length]? = some c) : made.map Prod.fst ++ [c] <+: registry := by
  obtain ⟨rest, rfl⟩ := attempted
  cases rest with
  | nil => simp at hc
  | cons d rest =>
    obtain rfl : d = c := by simpa using hc
    exact ⟨rest, by simp⟩

theorem attempted_all (attempted : made.map Prod.fst <+: registry)
    (hend : registry[made.length]? = none) : made.map Prod.fst = registry := by
  refine attempted.eq_of_length_le ?_
  rw [List.length_map]
  exact List.getElem?_eq_none_iff.mp hend

theorem works_of_step (h : s.Sound) (hs : s.step behaviour a = some s') (ha : a.task? = some t) :
    s.Works t s' := by
  have present := present_of_step hs
  cases a with
  | acceptPeer u =>
    obtain rfl := Option.some.inj ha
    exact works_acceptPeer (by simpa [step, present] using hs)
  | acceptClosed u =>
    obtain rfl := Option.some.inj ha
    exact works_acceptClosed (by simpa [step, present] using hs)
  | acceptExpired u =>
    obtain rfl := Option.some.inj ha
    exact works_acceptExpired (by simpa [step, present] using hs)
  | acceptFailed u reason =>
    obtain rfl := Option.some.inj ha
    exact works_acceptFailed (by simpa [step, present] using hs)
  | resume u =>
    obtain rfl := Option.some.inj ha
    exact works_resume h (by simpa [step, present] using hs)
  | _ => cases ha

theorem work_of_step (h : s.Sound) (hs : s.step behaviour a = some s') (ha : a.task? = some t)
    (ht : s.tasks[t]? = some job) :
    ∃ s₁ job', Work s t job s₁ job' ∧ s' = s₁.moveTask t job job' := by
  obtain ⟨job₀, s₁, job', ht', hw, rfl⟩ := works_of_step h hs ha
  obtain rfl := Option.some.inj (ht.symm.trans ht')
  exact ⟨s₁, job', hw, rfl⟩

theorem Turn.call_onward (ht : Turn behaviour s a s') (hx : s.connections[c]? = some x)
    (hi : x.calls[i]? = some call) :
    ∃ x' call', s'.connections[c]? = some x' ∧ x'.calls[i]? = some call' ∧
      (call' = call ∨ Connection.Moves x x' call call') := by
  have turned {y : Connection} {b : Connection.Action} (hturn : Connection.Turn x b y) :
      ∃ call', y.calls[i]? = some call' ∧ (call' = call ∨ Connection.Moves x y call call') := by
    rcases hturn.call_onward hi with hsame | ⟨call', hnew, hm⟩
    · exact ⟨call, hsame, .inl rfl⟩
    · exact ⟨call', hnew, .inr hm⟩
  obtain ⟨x', hx', hsteps⟩ := ht.changes.onward hx
  refine ⟨x', ?_⟩
  cases hsteps with
  | same heq => exact ⟨call, hx', heq ▸ hi, .inl rfl⟩
  | call hturn =>
    obtain ⟨call', hnew, hm⟩ := turned hturn
    exact ⟨call', hx', hnew, hm⟩
  | act _ hs =>
    obtain ⟨call', hnew, hm⟩ := turned (Connection.turn_of_step hs)
    exact ⟨call', hx', hnew, hm⟩

theorem Sound.inside (h : s.Sound) (ht : s.tasks[t]? = some job) (held : s.lock.isHeldBy t = true) :
    job.standing ≠ .outside := by
  intro hj
  rcases h.lock.standing_of_isHeldBy held with hw | hh
  · simp [ht, hj] at hw
  · simp [ht, hj] at hh

theorem Work.begins (hw : Work s t job s₁ job') (hj : job.standing ≠ .outside)
    (hj' : job'.standing ≠ .outside) :
    ∃ c x, s.connections[c]? = some x ∧
      begun s (s₁.moveTask t job job') = [(c, x.calls.length)] := by
  have one {d : Nat} {y y' : Connection} (hy : s.connections[d]? = some y)
      (hc : s₁.connections = s.connections.set d y')
      (hlen : y'.calls.length = y.calls.length + 1) :
      ∃ c x, s.connections[c]? = some x ∧
        begun s (s₁.moveTask t job job') = [(c, x.calls.length)] :=
    ⟨d, y, hy, begun_set hy hc hlen⟩
  cases hw with
  | broadcastNext _ _ hx | findHost _ _ hx => exact one hx rfl (List.length_append ..)
  | sweepNext _ _ hs _ hx => cases hs <;> exact one hx rfl (List.length_append ..)
  | closeNext _ _ hx => exact one hx rfl (List.length_append ..)
  | sweepEnd sweeper => cases sweeper <;> exact absurd rfl hj'
  | broadcastFailed | sentTo | enlist | refuse | refused | broadcastEnd | missHost | sent | closed
  | closeEnd | count | list | crash | reaperEnd => exact absurd rfl hj'
  | acceptClosed | acceptExpired | acceptFailed | acceptReset | acceptPeer | tick | reaperStopped
  | reaperCrashed => exact absurd rfl hj

namespace Tenure

theorem held (h : Tenure behaviour t s calls s₁) : s₁.lock.isHeldBy t = true := by
  cases h with
  | start held => exact held
  | step _ _ held => exact held

theorem run (h : Tenure behaviour t s calls s₁) : Run behaviour s s₁ := by
  induction h with
  | start => exact .refl
  | step _ hs _ ih => exact ih.tail ⟨_, hs⟩

theorem steps (h : Tenure behaviour t s calls s₁) (as : List Action)
    (has : tenure? behaviour t as s₁ calls = some (later, s₂)) : Tenure behaviour t s later s₂ := by
  induction as generalizing s₁ calls with
  | nil =>
    obtain ⟨rfl, rfl⟩ := Prod.mk.inj (Option.some.inj has)
    exact h
  | cons a as ih =>
    obtain ⟨s', hs, has⟩ := Option.bind_eq_some_iff.mp has
    split at has
    · rename_i held
      exact ih (.step h hs held) has
    · cases has

theorem trans (h : Tenure behaviour t s calls s₁) (h' : Tenure behaviour t s₁ later s₂) :
    Tenure behaviour t s (calls ++ later) s₂ := by
  induction h' with
  | start =>
    rw [List.append_nil]
    exact h
  | step _ hs held ih =>
    rw [← List.append_assoc]
    exact .step ih hs held

theorem sustains {P : List (Nat × Nat) → Server → Job → Prop} (h : Tenure behaviour t s calls s₁)
    (hsound : s.Sound) (ht : s.tasks[t]? = some job) (start : P [] s job)
    (other : ∀ {calls s₁ s₂ a job₁ job₂}, s₁.Sound → P calls s₁ job₁ →
      s₁.step behaviour a = some s₂ → s₂.registry = s₁.registry → job₁.Kept job₂ →
        P calls s₂ job₂)
    (own : ∀ {calls s₁ s₂ a job₁ job₂}, s₁.Sound → s₁.tasks[t]? = some job₁ → P calls s₁ job₁ →
      Work s₁ t job₁ s₂ job₂ → s₁.step behaviour a = some (s₂.moveTask t job₁ job₂) →
        job₁.standing ≠ .outside → job₂.standing ≠ .outside →
          P (calls ++ begun s₁ (s₂.moveTask t job₁ job₂)) (s₂.moveTask t job₁ job₂) job₂) :
    ∃ job₁, s₁.tasks[t]? = some job₁ ∧ P calls s₁ job₁ := by
  induction h with
  | start => exact ⟨job, ht, start⟩
  | @step calls s₁ s₂ a h hs held ih =>
    obtain ⟨job₁, ht₁, hp⟩ := ih
    have hsound₁ := h.run.sound hsound
    have hturn := hsound₁.turn_of_step hs
    by_cases ha : a.task? = some t
    · obtain ⟨s₃, job₂, hw, rfl⟩ := work_of_step hsound₁ hs ha ht₁
      have hnew := hw.moved_job ht₁
      have before := hsound₁.inside ht₁ h.held
      have after := (hsound₁.turn hturn).inside hnew held
      refine ⟨job₂, hnew, ?_⟩
      rw [begunBy, if_pos ha]
      exact own hsound₁ ht₁ hp hw hs before after
    · obtain ⟨job₂, ht₂, hkept, hheld⟩ := hturn.kept hsound₁ ha ht₁
      refine ⟨job₂, ht₂, ?_⟩
      rw [begunBy, if_neg ha, List.append_nil]
      exact other hsound₁ hp hs (hheld h.held).1 hkept

theorem keeps {P : List (Nat × Nat) → Server → Job → Prop} (h : Tenure behaviour t s calls s₁)
    (hreach : Reachable behaviour s) (ht : s.tasks[t]? = some job) (start : P [] s job)
    (other : ∀ {calls s₁ s₂ a job₁ job₂}, Reachable behaviour s₁ → P calls s₁ job₁ →
      Turn behaviour s₁ a s₂ → s₂.registry = s₁.registry → job₁.Kept job₂ → P calls s₂ job₂)
    (own : ∀ {calls s₁ s₂ job₁ job₂}, Reachable behaviour s₁ → s₁.tasks[t]? = some job₁ →
      P calls s₁ job₁ → Work s₁ t job₁ s₂ job₂ → job₁.standing ≠ .outside →
        job₂.standing ≠ .outside →
          P (calls ++ begun s₁ (s₂.moveTask t job₁ job₂)) (s₂.moveTask t job₁ job₂) job₂) :
    ∃ job₁, s₁.tasks[t]? = some job₁ ∧ P calls s₁ job₁ := by
  obtain ⟨job₁, ht₁, -, hp⟩ :=
    h.sustains (P := fun calls s job => Reachable behaviour s ∧ P calls s job)
      (sound_of_reachable hreach) ht ⟨hreach, start⟩
      (fun hsound ⟨hreach₁, hp⟩ hs hreg hkept =>
        ⟨.step _ hreach₁ hs, other hreach₁ hp (hsound.turn_of_step hs) hreg hkept⟩)
      (fun _ ht₁ ⟨hreach₁, hp⟩ hw hs before after =>
        ⟨.step _ hreach₁ hs, own hreach₁ ht₁ hp hw before after⟩)
  exact ⟨job₁, ht₁, hp⟩

theorem gives_up (h : Tenure behaviour t s calls s₁) (hsound : s₁.Sound)
    (ht : s₁.tasks[t]? = some job) (hs : s₁.step behaviour a = some s₂)
    (freed : s₂.lock.isHeldBy t = false) :
    a.task? = some t ∧ ∃ s₃ job', Work s₁ t job s₃ job' ∧ s₂ = s₃.moveTask t job job' ∧
      job'.standing = .outside := by
  have hturn := hsound.turn_of_step hs
  by_cases ha : a.task? = some t
  · obtain ⟨s₃, job', hw, rfl⟩ := work_of_step hsound hs ha ht
    have before := hsound.inside ht h.held
    refine ⟨ha, s₃, job', hw, rfl, Classical.byContradiction fun hj => ?_⟩
    simp only [moveTask, hw.frame.1, Lock.moved_within before hj, h.held] at freed
    cases freed
  · obtain ⟨_, -, -, hheld⟩ := hturn.kept hsound ha ht
    exact absurd (hheld h.held).2 (by simp [freed])

theorem releases (h : Tenure behaviour t s calls s₁) (hreach : Reachable behaviour s)
    (ht : s₁.tasks[t]? = some job) (hs : s₁.step behaviour a = some s₂)
    (freed : s₂.lock.isHeldBy t = false) :
    a.task? = some t ∧ ∃ s₃ job', Work s₁ t job s₃ job' ∧ s₂ = s₃.moveTask t job job' ∧
      job'.standing = .outside :=
  h.gives_up (sound_of_reachable (h.run.reachable hreach)) ht hs freed

end Tenure

theorem tenure_of_steps (behaviour : Behaviour) (config : ServerConfig) (t : Nat)
    (before during : List Action)
    (hs : steps? behaviour before { config } = some s) (held : s.lock.isHeldBy t = true)
    (hs₁ : tenure? behaviour t during s [] = some (calls, s₁)) :
    Reachable behaviour s ∧ Tenure behaviour t s calls s₁ :=
  ⟨reachable_of_steps before (.new config) hs, (Tenure.start held).steps during hs₁⟩

end Server

end Fanout
