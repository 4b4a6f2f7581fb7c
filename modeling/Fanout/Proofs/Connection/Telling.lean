import Fanout.Proofs.Connection.Turn

namespace Fanout.Connection

variable {σ : Type}

def tellAll (tell : Sink σ) : List (Connection × Signal) → σ → σ
  | [], s => s
  | (c, signal) :: told, s => tellAll tell told (tell c signal s).1

theorem tellAll_append (tell : Sink σ) (xs ys : List (Connection × Signal)) (s : σ) :
    tellAll tell (xs ++ ys) s = tellAll tell ys (tellAll tell xs s) := by
  induction xs generalizing s with
  | nil => rfl
  | cons x xs ih => exact ih _

def phaseAt (c : Connection) : Signal → Phase
  | .message _ => c.phase
  | .disconnected _ => .disconnected

def Faces (c : Connection) (told : Connection × Signal) : Prop :=
  told.1.stream = c.stream ∧ told.1.phase = c.phaseAt told.2

/-- A sink is told of the new signals, of each once and in their order, and of nothing else. -/
def Reports (tell : Sink σ) (c : Connection) (s : σ) (c' : Connection) (s' : σ) : Prop :=
  ∃ told, s' = tellAll tell told s ∧ c'.signals = c.signals ++ told.map Prod.snd ∧
    ∀ p ∈ told, c.Faces p

variable {tell : Sink σ} {c c' : Connection} {a : Action} {s s' : σ}

theorem reports_nothing (h : c'.signals = c.signals) : Reports tell c s c' s :=
  ⟨[], rfl, by simp [h], by simp⟩

theorem reports_append {c₁ c₂ : Connection} {s₁ s₂ : σ} (h : Reports tell c s c₁ s₁)
    (h' : Reports tell c₁ s₁ c₂ s₂) (hstream : c₁.stream = c.stream) (hphase : c₁.phase = c.phase) :
    Reports tell c s c₂ s₂ := by
  obtain ⟨told, rfl, hs, hf⟩ := h
  obtain ⟨told', rfl, hs', hf'⟩ := h'
  refine ⟨told ++ told', (tellAll_append tell told told' s).symm, by simp [hs, hs'], ?_⟩
  intro p hp
  rcases List.mem_append.mp hp with hp | hp
  · exact hf p hp
  · obtain ⟨h₁, h₂⟩ := hf' p hp
    refine ⟨h₁.trans hstream, h₂.trans ?_⟩
    cases p.2 with
    | message => exact hphase
    | disconnected => rfl

theorem reports_disconnect (tell : Sink σ) (c : Connection) (reason : Reason) (s : σ) :
    Reports tell c s (c.disconnect tell reason s).1 (c.disconnect tell reason s).2.1 := by
  by_cases hp : c.phase = .disconnected
  · rw [disconnect_returned tell hp]
    exact reports_nothing rfl
  · unfold disconnect
    rw [if_neg hp]
    refine ⟨[({ c with
      phase := .disconnected
      signals := c.signals ++ [.disconnected reason] }, .disconnected reason)], rfl, rfl, ?_⟩
    simp [Faces, phaseAt]

theorem reports_unwind (tell : Sink σ) (c : Connection) (s : σ) :
    Reports tell c s (c.unwindReceive tell s).1 (c.unwindReceive tell s).2 :=
  reports_disconnect tell { c with readHalf := .gone } .aborted s

theorem reports_deliver (tell : Sink σ) (c : Connection) (payload : List UInt8) (s : σ) :
    Reports tell c s (c.deliver tell payload s).1 (c.deliver tell payload s).2 := by
  have hm : Reports tell c s (c.taking payload) (tell (c.taking payload) (.message payload) s).1 :=
    ⟨[(_, .message payload)], rfl, rfl, by simp [Faces, phaseAt, taking]⟩
  cases h : (tell (c.taking payload) (.message payload) s).2 with
  | returned =>
    rw [deliver_returned h]
    exact hm
  | raised =>
    rw [deliver_raised h]
    exact reports_append hm (reports_unwind _ _ _) rfl rfl

theorem reports_finishClose {i : Nat} (h : c.finishClose tell i s = some (c', s')) :
    Reports tell c s c' s' := by
  unfold finishClose at h
  split at h
  · split at h
    · exact absurd h (by simp)
    · obtain ⟨rfl, rfl⟩ := Prod.mk.inj (Option.some.inj h)
      exact reports_disconnect tell
        { c with readHalf := if c.readHalf = .kept then .gone else c.readHalf } .closedLocally s
  · exact absurd h (by simp)

theorem reports_look (h : c.look tell s = some (c', s')) : Reports tell c s c' s' := by
  unfold look at h
  split at h
  · split at h
    · obtain ⟨rfl, rfl⟩ := Prod.mk.inj (Option.some.inj h)
      exact reports_disconnect tell { c with readHalf := .gone } .closedLocally s
    · obtain ⟨rfl, rfl⟩ := Prod.mk.inj (Option.some.inj h)
      exact reports_nothing rfl
  · exact absurd h (by simp)

theorem reports_read (h : c.read tell s = some (c', s')) : Reports tell c s c' s' := by
  unfold read at h
  split at h
  · split at h
    · obtain ⟨rfl, rfl⟩ := Prod.mk.inj (Option.some.inj h)
      exact reports_deliver tell c c.nextPayload s
    · split at h
      · obtain ⟨rfl, rfl⟩ := Prod.mk.inj (Option.some.inj h)
        exact reports_disconnect tell { c with readHalf := .gone } .peerClosed s
      · rename_i text _
        obtain ⟨rfl, rfl⟩ := Prod.mk.inj (Option.some.inj h)
        exact reports_disconnect tell { c with readHalf := .gone } (.failed text) s
      · obtain ⟨rfl, rfl⟩ := Prod.mk.inj (Option.some.inj h)
        exact reports_nothing rfl
  · exact absurd h (by simp)

theorem reports_step (h : c.step tell a s = some (c', s')) : Reports tell c s c' s' := by
  have ht := turn_of_step h
  have quiet {x : Option Connection} (hx : x.map (·, s) = some (c', s')) : s' = s := by
    obtain ⟨_, -, heq⟩ := Option.map_eq_some_iff.mp hx
    exact (Prod.mk.inj heq).2.symm
  cases a with
  | listen | send | close =>
    obtain rfl : s = s' := (Prod.mk.inj (Option.some.inj h)).2
    cases ht <;> exact reports_nothing rfl
  | obtainWriter | write | failWrite | writeExpired | obtainClosing | halt | arrive | finish =>
    obtain rfl := quiet h
    cases ht <;> exact reports_nothing rfl
  | finishClose i => exact reports_finishClose h
  | look => exact reports_look h
  | read => exact reports_read h

theorem quiet_of_signals (h : c.step tell a s = some (c', s')) (hsame : c'.signals = c.signals) :
    s' = s := by
  obtain ⟨told, rfl, hsignals, -⟩ := reports_step h
  have hnil : told = [] := by simpa [hsame] using hsignals
  rw [hnil]
  rfl

theorem Turn.peer (ht : Turn c a c') : c'.stream.peer = c.stream.peer := by
  cases ht <;> rfl

theorem Turn.host (ht : Turn c a c') : c'.host = c.host :=
  congrArg SocketAddress.host ht.peer

theorem farewell_length_le (c : Connection) (reason : Reason) : (c.farewell reason).length ≤ 1 := by
  unfold farewell
  split <;> simp

theorem deliver_once_or_raised (tell : Sink σ) (c : Connection) (payload : List UInt8) (s : σ) :
    (c.deliver tell payload s).1.signals = c.signals ++ [.message payload] ∨
      ∃ c₁, (tell c₁ (.message payload) s).2 = .raised ∧
        ∃ told,
          (c.deliver tell payload s).2 = tellAll tell told (tell c₁ (.message payload) s).1 := by
  cases h : (tell (c.taking payload) (.message payload) s).2 with
  | returned =>
    rw [deliver_returned h]
    exact .inl rfl
  | raised =>
    obtain ⟨told, htold, -⟩ := reports_unwind tell (c.taking payload)
      (tell (c.taking payload) (.message payload) s).1
    exact .inr ⟨_, h, told, deliver_raised h ▸ htold⟩

theorem tells_once_or_raises (h : c.step tell a s = some (c', s')) :
    c'.signals.length ≤ c.signals.length + 1 ∨
      ∃ c₁ signal, (tell c₁ signal s).2 = .raised ∧
        ∃ told, s' = tellAll tell told (tell c₁ signal s).1 := by
  cases turn_of_step h with
  | finishClose | quit | hangUp =>
    refine .inl ?_
    simp only [List.length_append]
    exact Nat.add_le_add_left (farewell_length_le c _) _
  | unwind how hr hne =>
    simp only [step, read, if_pos hr, if_pos hne, Option.some.injEq] at h
    rcases deliver_once_or_raised tell c c.nextPayload s with honce | ⟨c₁, hout, told, htold⟩
    · rw [h] at honce
      exact .inl (Nat.le_of_eq ((congrArg List.length honce).trans List.length_append))
    · rw [h] at htold
      exact .inr ⟨c₁, _, hout, told, htold⟩
  | deliver => exact .inl (by simp)
  | _ => exact .inl (Nat.le_succ _)

end Fanout.Connection
