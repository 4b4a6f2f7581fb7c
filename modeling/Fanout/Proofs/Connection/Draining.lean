import Fanout.Proofs.Connection.Waiting

namespace Fanout

def Call.work : Call → Nat
  | .send _ .queued => 2
  | .send _ (.writing _) => 1
  | .close .queued => 3
  | .close .draining => 2
  | .close (.joining _ _) => 1
  | _ => 0

def Call.total : List Call → Nat
  | [] => 0
  | call :: calls => call.work + total calls

theorem Call.total_set {calls : List Call} {i : Nat} {call : Call} (hi : calls[i]? = some call)
    (call' : Call) : total (calls.set i call') + call.work = total calls + call'.work := by
  induction calls generalizing i with
  | nil => simp at hi
  | cons first rest ih =>
    cases i with
    | zero =>
      obtain rfl : first = call := by simpa using hi
      simp only [List.set_cons_zero, total]
      omega
    | succ i =>
      have := ih (i := i) (by simpa using hi)
      simp only [List.set_cons_succ, total]
      omega

/-- In a round that has begun the task still reads, before it learns that it has been cancelled. -/
def Receiver.work : Receiver → Nat
  | .idle => 1
  | .reading => 2
  | _ => 0

namespace Connection

def work (c : Connection) : Nat :=
  Call.total c.calls

def load (c : Connection) : Nat :=
  c.work + c.receiver.work

def Action.isDraining : Action → Bool
  | .obtainWriter _ | .writeExpired _ | .obtainClosing _ | .halt _ _ | .finishClose _ => true
  | _ => false

def Action.isWaning (a : Action) : Bool :=
  a.isDraining || a.isReceive

variable {σ : Type} {c c' : Connection} {a : Action} {i j : Nat} {call : Call}

theorem Action.not_call_of_draining (h : a.isDraining = true) : a.isCall = false := by
  cases a <;> first | rfl | simp [isDraining] at h

theorem Action.draining_of_prompt (h : a.promptCall? = some i) : a.isDraining = true := by
  cases a <;> first | rfl | simp [promptCall?] at h

theorem Action.not_call_of_waning (h : a.isWaning = true) : a.isCall = false := by
  rcases Bool.or_eq_true _ _ ▸ h with h | h
  · exact not_call_of_draining h
  · exact not_call_of_receive h

theorem work_set (hi : c.calls[i]? = some call) (call' : Call)
    (hc : c'.calls = c.calls.set i call') (hlt : call'.work < call.work) :
    c'.calls.length = c.calls.length ∧ c'.work < c.work := by
  have := Call.total_set hi call'
  refine ⟨by simp [hc], ?_⟩
  unfold work
  rw [hc]
  omega

theorem Turn.drains (ht : Turn c a c') (ha : a.isDraining = true) :
    (c'.calls.length = c.calls.length ∧ c'.work < c.work) ∧ c'.receiver = c.receiver := by
  cases ht with
  | turnAway hi | sendNothing hi => exact ⟨work_set hi _ rfl Nat.zero_lt_two, rfl⟩
  | startWriting hi => exact ⟨work_set hi _ rfl Nat.one_lt_two, rfl⟩
  | writeExpired hi => exact ⟨work_set hi _ rfl Nat.zero_lt_one, rfl⟩
  | obtainClosing hi => exact ⟨work_set hi (.close .draining) rfl (Nat.lt_succ_self 2), rfl⟩
  | halt _ hi => exact ⟨work_set hi (.close (.joining _ _)) rfl Nat.one_lt_two, rfl⟩
  | finishClose hi _ hp =>
    refine ⟨work_set hi _ rfl ?_, rfl⟩
    rcases hp with rfl | ⟨rfl, -⟩ <;> exact Nat.zero_lt_one
  | _ => simp [Action.isDraining] at ha

theorem Sound.unhindered (h : c.Sound) (hr : c.isReceiving = false)
    (hi : c.calls[i]? = some call) (hu : call.ending? = none) :
    (∃ a j, a.promptCall? = some j ∧ c.Goes a) ∨
      ∃ (j written : Nat) (payload : List UInt8),
        c.calls[j]? = some (.send payload (.writing written)) := by
  -- By induction on the rank: whoever a call waits for is a call that can go on, since there is no
  -- receive task to be joined.
  induction hn : c.callRank i using Nat.strongRecOn generalizing i call with
  | ind n ih =>
    rcases h.call_goes_on hi hu with ⟨o, hw⟩ | ⟨a, ha, hgoes⟩ | ⟨payload, written, rfl⟩
    · cases o with
      | call j =>
        obtain ⟨other, hj, hunended⟩ := h.unended_of_awaited hw
        exact ih (c.callRank j) (hn ▸ h.callRank_lt hw) hj hunended rfl
      | receiver => exact absurd (h.receiving_of_awaited hw).1 (by simp [hr])
    · exact .inl ⟨a, i, ha, hgoes⟩
    · exact .inr ⟨i, written, payload, hi⟩

theorem Sound.drains (h : c.Sound) (hr : c.isReceiving = false) (hi : c.calls[i]? = some call)
    (hu : call.ending? = none) : ∃ a, a.isDraining = true ∧ c.Goes a := by
  rcases h.unhindered hr hi hu with ⟨a, j, ha, hgoes⟩ | ⟨j, written, payload, hj⟩
  · exact ⟨a, Action.draining_of_prompt ha, hgoes⟩
  · exact ⟨.writeExpired j, rfl, goes_writeExpired hj⟩

theorem Turn.wanes (ht : Turn c a c') (hc : c.cancelled = true) (ha : a.isWaning = true) :
    c'.load < c.load := by
  unfold load
  rcases Bool.or_eq_true _ _ ▸ ha with ha | ha
  · obtain ⟨⟨-, hlt⟩, hr⟩ := ht.drains ha
    rw [hr]
    omega
  · cases ht with
    | look _ hc' => exact absurd (hc.symm.trans hc') nofun
    | quit _ hr => simp [work, hr, Receiver.work]
    | deliver hr | unwind _ hr | hangUp _ _ hr | wait hr => simp [work, hr, Receiver.work]
    | _ => cases ha

theorem Sound.wanes (h : c.Sound) (hi : c.calls[i]? = some call) (hu : call.ending? = none) :
    ∃ a, a.isWaning = true ∧ c.Goes a := by
  cases hr : c.isReceiving with
  | true =>
    obtain ⟨a, ha, hgoes⟩ := receiver_goes hr
    exact ⟨a, by simp [Action.isWaning, ha], hgoes⟩
  | false =>
    obtain ⟨a, ha, hgoes⟩ := h.drains hr hi hu
    exact ⟨a, by simp [Action.isWaning, ha], hgoes⟩

end Connection

end Fanout
