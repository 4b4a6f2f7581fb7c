import Fanout.Proofs.Connection.Wire
import Fanout.Proofs.Sending.Quiet
import Fanout.Proofs.Server.Release
import Mathlib.Data.List.Nodup

namespace Fanout.Server

open Connection (SendsOnly sendsOnly_set)

variable {behaviour : Behaviour} {s s' s₁ : Server} {t c call : Nat} {job job' : Job} {a : Action}
  {x : Connection} {payload : List UInt8} {calls : List (Nat × Nat)} {p : Nat × Nat}

def Sends (s : Server) (payload : List UInt8) (p : Nat × Nat) : Prop :=
  ∃ x point, s.connections[p.1]? = some x ∧ x.calls[p.2]? = some (.send payload point)

def Sent (s : Server) (payload : List UInt8) (p : Nat × Nat) : Prop :=
  ∃ x, s.connections[p.1]? = some x ∧
    x.calls[p.2]? = some (.send payload (.done payload.length none))

/-- What some calls have put on the wire of a connection, one segment for each that had the writer.
-/
def putBy (s : Server) (calls : List (Nat × Nat)) (c : Nat) : List (List UInt8) :=
  match s.connections[c]? with
  | some x => (x.writers.filter fun call => calls.contains (c, call)).map (segmentAt x.calls)
  | none => []

theorem sends_begun (hx : s.connections[c]? = some x) (payload : List UInt8) :
    (s.setConnection c (x.beginSend payload)).Sends payload (c, x.calls.length) :=
  ⟨x.beginSend payload, .queued, (getElem?_set_eq_some hx).mpr (.inl ⟨rfl, rfl⟩),
    getElem?_concat_eq_some.mpr (.inl ⟨rfl, rfl⟩)⟩

theorem Sends.turn (h : s.Sends payload p) (ht : Turn behaviour s a s') : s'.Sends payload p := by
  obtain ⟨x, point, hx, hi⟩ := h
  obtain ⟨x', call', hx', hi', hmoved⟩ := ht.call_onward hx hi
  rcases hmoved with rfl | hm
  · exact ⟨x', point, hx', hi'⟩
  · cases hm with
    | turnAway | sendNothing | startWriting | write | endWriting => exact ⟨x', _, hx', hi'⟩

theorem Sent.turn (h : s.Sent payload p) (ht : Turn behaviour s a s') : s'.Sent payload p := by
  obtain ⟨x, hx, hi⟩ := h
  obtain ⟨x', call', hx', hi', hmoved⟩ := ht.call_onward hx hi
  rcases hmoved with rfl | hm
  · exact ⟨x', hx', hi'⟩
  · cases hm.unended

theorem Sent.sends (h : s.Sent payload p) : s.Sends payload p := by
  obtain ⟨x, hx, hi⟩ := h
  exact ⟨x, _, hx, hi⟩

theorem Sends.ending {ending : CallEnd} (h : s.Sends payload (c, call))
    (hx : s.connections[c]? = some x) (he : x.ending? call = some ending) :
    ∃ written failure, x.calls[call]? = some (.send payload (.done written failure)) ∧
      ending = .returned failure := by
  obtain ⟨y, point, hy, hi⟩ := h
  obtain rfl := Option.some.inj (hx.symm.trans hy)
  obtain ⟨old, hold, hend⟩ := Option.bind_eq_some_iff.mp he
  obtain rfl := Option.some.inj (hi.symm.trans hold)
  cases point with
  | queued | writing => cases hend
  | done written failure => exact ⟨written, failure, hi, (Option.some.inj hend).symm⟩

theorem Sends.uncrashed (h : s.Sends payload (c, call)) : ¬ s.Crashes c call := by
  intro ⟨x, hx, he⟩
  obtain ⟨_, _, -, hending⟩ := h.ending hx he
  cases hending

theorem Sends.fleeting (h : s.Sends payload (c, call)) :
    ∃ x, s.connections[c]? = some x ∧ x.Fleeting call := by
  obtain ⟨x, point, hx, hi⟩ := h
  exact ⟨x, hx, .send hi⟩

theorem Sends.sent (h : s.Sends payload (c, call)) (hreach : Reachable behaviour s)
    (hr : s.Returns c call none) : s.Sent payload (c, call) := by
  obtain ⟨x, hx, he⟩ := hr
  obtain ⟨written, failure, hi, hending⟩ := h.ending hx he
  cases hending
  obtain rfl : written = payload.length :=
    (Connection.wired_of_reachable (connection_reachable hreach hx)).settled hi
  exact ⟨x, hx, hi⟩

theorem Sent.returns (h : s.Sent payload (c, call)) : s.Returns c call none := by
  obtain ⟨x, hx, hi⟩ := h
  exact ⟨x, hx, Option.bind_eq_some_iff.mpr ⟨_, hi, rfl⟩⟩

theorem putBy_eq_nil (h : c ∉ calls.map Prod.fst) : s.putBy calls c = [] := by
  unfold putBy
  split
  · rw [List.map_eq_nil_iff, List.filter_eq_nil_iff]
    intro call _ hmem
    exact h (List.mem_map_of_mem (f := Prod.fst) (List.contains_iff_mem.mp hmem))
  · rfl

theorem Sent.putBy (h : s.Sent payload (c, call)) (hreach : Reachable behaviour s)
    (hmem : (c, call) ∈ calls) (hnodup : (calls.map Prod.fst).Nodup) :
    s.putBy calls c = [payload] := by
  obtain ⟨x, hx, hi⟩ := h
  have hwired := Connection.wired_of_reachable (connection_reachable hreach hx)
  have hwriter : call ∈ x.writers := (hwired.mem_iff call).mpr ⟨_, hi, rfl⟩
  have hone (k : Nat) : calls.contains (c, k) = decide (k = call) := by
    rw [Bool.eq_iff_iff, List.contains_iff_mem, decide_eq_true_iff]
    constructor
    · intro hk
      exact (Prod.mk.inj (List.inj_on_of_nodup_map hnodup hk hmem rfl)).2
    · rintro rfl
      exact hmem
  have halone : x.writers.filter (fun k => calls.contains (c, k)) = [call] := by
    simp only [hone, List.filter_eq, List.count_eq_one_of_mem hwired.nodup hwriter,
      List.replicate_one]
  simp only [Server.putBy, hx, halone, List.map_cons, List.map_nil, segmentAt_eq hi, Call.segment,
    List.take_length]

theorem Work.registry_of_sending (hw : Work s t job s₁ job') (hj : job.isSending = true) :
    s₁.registry = s.registry := by
  cases hw with
  | broadcastNext | findHost | broadcastEnd | broadcastFailed | missHost | sentTo | sent | crash =>
    rfl
  | sweepNext sweeper | sweepEnd sweeper => cases sweeper <;> cases hj
  | _ => cases hj

theorem Work.others_of_sending (hw : Work s t job s₁ job') (hj : job.isSending = true)
    (hc : c ∉ (begun s (s₁.moveTask t job job')).map Prod.fst) :
    s₁.connections[c]? = s.connections[c]? := by
  have other {d : Nat} {y : Connection} {payload : List UInt8} (hy : s.connections[d]? = some y)
      (hc : c ∉ (begun s ((s.setConnection d (y.beginSend payload)).moveTask t job job')).map
        Prod.fst) : (s.connections.set d (y.beginSend payload))[c]? = s.connections[c]? := by
    rw [begun_set hy rfl (List.length_append ..)] at hc
    exact List.getElem?_set_ne fun hdc => hc (by simp [hdc])
  cases hw with
  | broadcastNext _ _ hx | findHost _ _ hx => exact other hx hc
  | broadcastEnd | broadcastFailed | missHost | sentTo | sent | crash => rfl
  | sweepNext sweeper | sweepEnd sweeper => cases sweeper <;> cases hj
  | _ => cases hj

theorem sends_only (h : s.Sound) (ht : s.tasks[t]? = some job) (hj : job.isSending = true)
    (hs : s.step behaviour a = some s')
    (ha : a.task? = some t ∨ ∃ c act, a = .on c act ∧ act.isSending = true) :
    s'.registry = s.registry ∧ s'.feed = s.feed ∧
      List.Forall₂ SendsOnly s.connections s'.connections := by
  rcases ha with ha | ⟨c, act, rfl, ha⟩
  · obtain ⟨s₁, job', hw, rfl⟩ := work_of_step h hs ha ht
    exact ⟨hw.registry_of_sending hj, hw.sends hj⟩
  · obtain ⟨x, x', feed, hx, hstep, rfl⟩ := on_of_step hs
    obtain ⟨rfl, honly⟩ := Connection.sending_step ha hstep
    exact ⟨rfl, rfl, sendsOnly_set hx honly⟩

end Fanout.Server
