import Fanout.Proofs.Client.Soundness

namespace Fanout.Client

variable {behaviour : Behaviour} {s s' : Client} {t c call : Nat} {job : ClientJob}
  {x : Connection} {p q : Actor}

def IsActive (s : Client) : Actor → Prop
  | .task t => s.isAborted = false ∧ ∃ job, s.tasks[t]? = some job ∧ job.isOver = false
  | .receiver c => s.isAborted = false ∧ ∃ x, s.connections[c]? = some x ∧ x.isReceiving = true

theorem IsActive.present (h : s.IsActive p) : s.isAborted = false := by
  cases p <;> exact h.1

inductive WaitsOutside (s : Client) : Actor → Prop
  | connect {t : Nat} {address : String} {deadline : Option Nat}
      (ht : s.tasks[t]? = some (.connect address deadline)) : WaitsOutside s (.task t)
  | write {t : Nat} (hw : Writes s.connections s.awaits t) : WaitsOutside s (.task t)

def Free (behaviour : Behaviour) (s : Client) : Actor → Prop :=
  Moves (fun t => s.step behaviour (.resume t)) (fun c a => s.step behaviour (.on c a)) s.awaits

def scene (behaviour : Behaviour) (s : Client) : Scene where
  WaitsFor := CallWaits s.connections s.awaits
  Active := s.IsActive
  Moves := s.Free behaviour
  Outside := s.WaitsOutside

theorem not_over_of_awaited (ha : awaited? job = some (c, call)) : job.isOver = false := by
  cases job with
  | done => simp [awaited?] at ha
  | crashed => simp [awaited?] at ha
  | _ => rfl

theorem Sound.waited_for_active (h : s.Sound) (hp : s.IsActive p)
    (hw : CallWaits s.connections s.awaits p q) : s.IsActive q := by
  have present := hp.present
  cases hw with
  | call _ _ _ hu =>
    obtain ⟨job, hjob, ha⟩ := Option.bind_eq_some_iff.mp hu
    exact ⟨present, job, hjob, not_over_of_awaited ha⟩
  | receiver _ hx hawaits =>
    exact ⟨present, _, hx, ((h.connections hx).receiving_of_awaited hawaits).1⟩

theorem Sound.after_call (h : s.Sound) (ht : s.tasks[t]? = some job)
    (ha : awaited? job = some (c, call)) (failure : Failure) :
    (s.afterCall t failure job).isSome = true := by
  match job with
  | .discard .. => rfl
  | .replace address d stale call =>
    obtain ⟨y, hy⟩ : ∃ y, s.connections[d]? = some y :=
      ⟨_, List.getElem?_eq_getElem (h.replacing ht)⟩
    simp only [afterCall, startListening, hy, Option.bind_eq_bind, Option.bind_some]
    cases y.listen.2 <;> rfl
  | .send .. | .close .. => cases failure <;> rfl
  | .connect .. | .done _ | .crashed => simp [awaited?] at ha

theorem Sound.caller_goes_on {ending : CallEnd} (h : s.Sound) (ht : s.tasks[t]? = some job)
    (ha : awaited? job = some (c, call)) (hx : s.connections[c]? = some x)
    (he : x.ending? call = some ending) : (s.resume t).isSome = true := by
  cases ending with
  | crashed => simp [resume, ht, ha, hx, he]
  | returned failure => simpa [resume, ht, ha, hx, he] using h.after_call ht ha failure

theorem step_of_goes (present : s.isAborted = false) {a : Connection.Action}
    (hx : s.connections[c]? = some x) (ha : a.isCall = false) (hgoes : x.Goes a) :
    ∃ s', s.step behaviour (.on c a) = some s' := by
  obtain ⟨⟨x', feed⟩, hs⟩ := hgoes (s.tell behaviour c) s.feed
  exact ⟨{ s.setConnection c x' with feed }, by simp [step, present, ha, actOn, hx, hs]⟩

theorem receiver_free (h : s.IsActive (.receiver c)) : s.Free behaviour (.receiver c) := by
  obtain ⟨present, x, hx, hr⟩ := h
  exact receiver_moves (step_of_goes present) hx hr

theorem Sound.task_free (h : s.Sound) (hp : s.IsActive (.task t)) :
    (∃ q, CallWaits s.connections s.awaits (.task t) q) ∨ s.Free behaviour (.task t) ∨
      s.WaitsOutside (.task t) := by
  obtain ⟨present, job, ht, hj⟩ := hp
  cases ha : awaited? job with
  | some awaited =>
    obtain ⟨c, call⟩ := awaited
    have hawaits : s.awaits t = some (c, call) := by simp [awaits, ht, ha]
    have ended {x : Connection} {ending : CallEnd} (hx : s.connections[c]? = some x)
        (he : x.ending? call = some ending) : ∃ s', s.step behaviour (.resume t) = some s' := by
      obtain ⟨s', hs⟩ := Option.isSome_iff_exists.mp (h.caller_goes_on ht ha hx he)
      exact ⟨s', by simp [step, present, hs]⟩
    exact (h.attended.caller_free (step_of_goes present) (fun hx => h.connections hx) hawaits
      ended).imp_right (Or.imp_right .write)
  | none =>
    cases job with
    | connect => exact .inr (.inr (.connect ht))
    | discard | replace | send | close => simp [awaited?] at ha
    | done | crashed => simp [ClientJob.isOver] at hj

theorem Sound.ranked (h : s.Sound) :
    (s.scene behaviour).Ranked (callerRank s.connections s.awaits) where
  falls := fun hw => hw.rank_lt fun hx => h.connections hx
  active := h.waited_for_active
  free {p} hp := by
    cases p with
    | task t => exact h.task_free hp
    | receiver c => exact .inr (.inl (receiver_free hp))

theorem deadlockFree_of_reachable (h : Reachable behaviour s) :
    (s.scene behaviour).DeadlockFree := by
  refine (sound_of_reachable h).ranked.deadlockFree ?_
  intro c hc
  refine ⟨?_, receiver_free hc⟩
  intro q hq
  cases hq

end Fanout.Client
