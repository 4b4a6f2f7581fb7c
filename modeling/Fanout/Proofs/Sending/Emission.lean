import Fanout.Proofs.Connection.Wire
import Fanout.Proofs.Server.Connections
import Fanout.Proofs.Server.Onward

namespace Fanout

variable {c c' x : Connection} {xs xs' : List Connection} {i : Nat}

namespace Connection

inductive Emits (c c' : Connection) : Prop
  | nothing (hwire : c'.wire = c.wire)
      (hsegments : ∀ j, segmentAt c'.calls j = segmentAt c.calls j)
  | bytes {i written : Nat} {payload : List UInt8} (bytes : List UInt8)
      (hi : c.calls[i]? = some (.send payload (.writing written)))
      (hwire : c'.wire = c.wire ++ bytes)
      (hsegment : segmentAt c'.calls i = segmentAt c.calls i ++ bytes)
      (hothers : ∀ j, j ≠ i → segmentAt c'.calls j = segmentAt c.calls j)

theorem Turn.emits {a : Action} (ht : Turn c a c') : Emits c c' := by
  cases ht with
  | refuse | strand | listen | send | close => exact .nothing rfl (segmentAt_concat rfl)
  | turnAway hi | sendNothing hi | startWriting hi | obtainClosing hi | halt _ hi
  | finishClose hi => exact .nothing rfl (segmentAt_set_same hi rfl)
  | failWrite _ hi | writeExpired hi => exact .nothing rfl (segmentAt_set_same hi rfl)
  | write hi | finishWriting hi =>
    refine .bytes _ hi rfl ?_ fun j hj => segmentAt_set_ne hj
    exact (segmentAt_set hi).trans (List.take_add.trans (by rw [segmentAt_eq hi, Call.segment]))
  | look | quit | deliver | unwind | hangUp | wait | arrive | finish => exact .nothing rfl fun _ => rfl

end Connection

def wireAt (xs : List Connection) (c : Nat) : List UInt8 :=
  (xs[c]?.map Connection.wire).getD []

def segmentOf (xs : List Connection) (p : Nat × Nat) : List UInt8 :=
  (xs[p.1]?.map fun x => segmentAt x.calls p.2).getD []

theorem wireAt_eq (hx : xs[i]? = some x) : wireAt xs i = x.wire := by
  simp [wireAt, hx]

theorem segmentOf_eq {p : Nat × Nat} (hx : xs[p.1]? = some x) :
    segmentOf xs p = segmentAt x.calls p.2 := by
  simp [segmentOf, hx]

inductive Emits (xs xs' : List Connection) : Prop
  | nothing (hwire : ∀ d, wireAt xs' d = wireAt xs d)
      (hsegments : ∀ p, segmentOf xs' p = segmentOf xs p)
  | bytes {c i written : Nat} {x : Connection} {payload : List UInt8} (bytes : List UInt8)
      (hx : xs[c]? = some x) (hi : x.calls[i]? = some (.send payload (.writing written)))
      (hwire : wireAt xs' c = wireAt xs c ++ bytes)
      (hwires : ∀ d, d ≠ c → wireAt xs' d = wireAt xs d)
      (hsegment : segmentOf xs' (c, i) = segmentOf xs (c, i) ++ bytes)
      (hsegments : ∀ p, p ≠ (c, i) → segmentOf xs' p = segmentOf xs p)

theorem emits_same (xs : List Connection) : Emits xs xs :=
  .nothing (fun _ => rfl) fun _ => rfl

theorem emits_concat (xs : List Connection) (hwire : x.wire = []) (hcalls : x.calls = []) :
    Emits xs (xs ++ [x]) := by
  have at_concat (d : Nat) : (xs ++ [x])[d]? = xs[d]? ∨
      (xs ++ [x])[d]? = some x ∧ xs[d]? = none := by
    rcases Nat.lt_trichotomy d xs.length with hd | rfl | hd
    · exact .inl (List.getElem?_append_left hd)
    · exact .inr ⟨List.getElem?_concat_length, List.getElem?_eq_none (Nat.le_refl _)⟩
    · refine .inl ?_
      have hlen : (xs ++ [x]).length ≤ d := by
        rw [List.length_append]
        exact hd
      rw [List.getElem?_eq_none (Nat.le_of_lt hd), List.getElem?_eq_none hlen]
  refine .nothing (fun d => ?_) fun p => ?_
  · rcases at_concat d with hsame | ⟨hnew, hold⟩
    · rw [wireAt, wireAt, hsame]
    · simp [wireAt, hnew, hold, hwire]
  · rcases at_concat p.1 with hsame | ⟨hnew, hold⟩
    · rw [segmentOf, segmentOf, hsame]
    · simp [segmentOf, segmentAt, hnew, hold, hcalls]

theorem emits_set (hx : xs[i]? = some c) (h : c.Emits c') : Emits xs (xs.set i c') := by
  have hnew : (xs.set i c')[i]? = some c' := (getElem?_set_eq_some hx).mpr (.inl ⟨rfl, rfl⟩)
  have hold (d : Nat) (hd : d ≠ i) : (xs.set i c')[d]? = xs[d]? := List.getElem?_set_ne (Ne.symm hd)
  cases h with
  | nothing hwire hsegments =>
    refine .nothing (fun d => ?_) fun p => ?_
    · by_cases hd : d = i
      · rw [hd, wireAt_eq hnew, wireAt_eq hx, hwire]
      · rw [wireAt, wireAt, hold d hd]
    · obtain ⟨d, j⟩ := p
      by_cases hd : d = i
      · subst hd
        rw [segmentOf_eq hnew, segmentOf_eq hx, hsegments]
      · rw [segmentOf, segmentOf, hold d hd]
  | @bytes j _ _ bytes hj hwire hsegment hothers =>
    refine .bytes bytes hx hj ?_ (fun d hd => ?_) ?_ fun p hp => ?_
    · rw [wireAt_eq hnew, wireAt_eq hx, hwire]
    · rw [wireAt, wireAt, hold d hd]
    · rw [segmentOf_eq (p := (i, j)) hnew, segmentOf_eq (p := (i, j)) hx, hsegment]
    · obtain ⟨d, k⟩ := p
      by_cases hd : d = i
      · subst hd
        have hk : k ≠ j := fun hkj => hp (congrArg _ hkj)
        rw [segmentOf_eq hnew, segmentOf_eq hx, hothers k hk]
      · rw [segmentOf, segmentOf, hold d hd]

namespace Server

variable {behaviour : Behaviour} {s s' : Server} {a : Action}

theorem Changes.emits (h : Changes behaviour s xs) (hwired : ∀ x ∈ xs, x.Wired) :
    Fanout.Emits s.connections xs := by
  cases h with
  | same => exact emits_same _
  | @set _ x _ hx hs =>
    refine emits_set hx ?_
    cases hs with
    | same heq => exact heq ▸ .nothing rfl fun _ => rfl
    | call ht => exact ht.emits
    | act _ hs => exact (Connection.turn_of_step hs).emits
  | @fresh x hx =>
    have hw := hwired x (List.mem_append_right _ (List.mem_singleton_self x))
    have hnone : x.writers = [] := by
      refine List.eq_nil_iff_forall_not_mem.mpr fun i hi => ?_
      obtain ⟨call, hcall, -⟩ := (hw.mem_iff i).mp hi
      simp [hx.calls] at hcall
    exact emits_concat _ (by rw [hw.wire, hnone]; rfl) hx.calls

theorem Turn.emits (ht : Turn behaviour s a s') (hreach : Reachable behaviour s') :
    Fanout.Emits s.connections s'.connections := by
  refine ht.changes.emits fun x hx => ?_
  obtain ⟨c, hc⟩ := List.mem_iff_getElem?.mp hx
  exact Connection.wired_of_reachable (connection_reachable hreach hc)

end Server

end Fanout
