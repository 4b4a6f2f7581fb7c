import Fanout.Proofs.Observer.Account
import Mathlib.Data.List.Nodup

namespace Fanout

inductive Observer.Takes (o : Observer) (h : Handler) : Event → Prop
  | message {address : String} {payload : List UInt8}
      (hf : o.filter = none ∨ o.filter = some address) (hh : o.onMessage = some h) :
      o.Takes h (.message address payload)
  | disconnection {address reason : String} (hf : o.filter = some address)
      (hh : o.onDisconnect = some h) : o.Takes h (.disconnection address reason)
  | disconnectionToAll {address reason : String} (hh : o.onDisconnect = some h) :
      o.Takes h (.disconnectionToAll address reason)

theorem Observer.handler?_eq_some_iff {o : Observer} {h : Handler} {e : Event} :
    o.handler? e = some h ↔ o.Takes h e := by
  constructor
  · intro heq
    cases e with
    | message address payload =>
      obtain ⟨hf, hh⟩ := Option.ite_none_right_eq_some.mp heq
      exact .message ((o.wantsMessageFrom_iff address).mp hf) hh
    | disconnection address reason =>
      obtain ⟨hf, hh⟩ := Option.ite_none_right_eq_some.mp heq
      exact .disconnection ((o.wantsDisconnectionOf_iff address).mp hf) hh
    | disconnectionToAll address reason => exact .disconnectionToAll heq
  · intro ht
    cases ht with
    | message hf hh => exact (if_pos ((o.wantsMessageFrom_iff _).mpr hf)).trans hh
    | disconnection hf hh => exact (if_pos ((o.wantsDisconnectionOf_iff _).mpr hf)).trans hh
    | disconnectionToAll hh => exact hh

namespace Bus

variable {ds during ds' xs ys : List Deed} {d : Deed} {out : Outcome} {n i : Nat} {e : Event}
  {h : Handler} {os : List Observer} {o : Observer} {hs called : List (Nat × Handler)}
  {ends : List (Nat × Outcome)}

structure Selects (os : List Observer) (e : Event) (hs : List (Nat × Handler)) : Prop where
  ordered : hs.Pairwise fun p q => p.1 < q.1
  mem_iff : ∀ i h, (i, h) ∈ hs ↔ ∃ o, os[i]? = some o ∧ o.Takes h e

theorem zipIdx_ordered (os : List Observer) : os.zipIdx.Pairwise fun p q => p.2 < q.2 := by
  rw [← List.pairwise_map, List.zipIdx_map_snd]
  exact List.pairwise_lt_range' 1

theorem selects_handlers (b : Bus) (e : Event) : Selects b.observers e (b.handlers e) where
  ordered := by
    refine (zipIdx_ordered b.observers).filterMap _ ?_
    intro p q hlt p' hp q' hq
    obtain ⟨_, -, rfl⟩ := Option.map_eq_some_iff.mp hp
    obtain ⟨_, -, rfl⟩ := Option.map_eq_some_iff.mp hq
    exact hlt
  mem_iff i h := by
    rw [handlers, List.mem_filterMap]
    constructor
    · rintro ⟨⟨o, j⟩, hmem, heq⟩
      obtain ⟨h', hh, hp⟩ := Option.map_eq_some_iff.mp heq
      obtain ⟨rfl, rfl⟩ := Prod.mk.inj hp
      exact ⟨o, List.mk_mem_zipIdx_iff_getElem?.mp hmem, Observer.handler?_eq_some_iff.mp hh⟩
    · rintro ⟨o, ho, ht⟩
      exact ⟨(o, i), List.mk_mem_zipIdx_iff_getElem?.mpr ho,
        congrArg (Option.map fun h => (i, h)) (Observer.handler?_eq_some_iff.mpr ht)⟩

theorem Selects.lt (hsel : Selects os e hs) (hm : (i, h) ∈ hs) : i < os.length := by
  obtain ⟨o, ho, -⟩ := (hsel.mem_iff i h).mp hm
  exact (List.getElem?_eq_some_iff.mp ho).1

/-- Of these callbacks those are called, which end so, and then the dispatch does: it calls all of
them if they return, and else no further than to the first that raises. -/
inductive Serves (hs : List (Nat × Handler)) :
    List (Nat × Handler) → List (Nat × Outcome) → Outcome → Prop
  | all : Serves hs hs (hs.map fun p => (p.1, .returned)) .returned
  | cut {pre post : List (Nat × Handler)} {p : Nat × Handler} (heq : hs = pre ++ p :: post) :
      Serves hs (pre ++ [p]) ((pre.map fun p => (p.1, .returned)) ++ [(p.1, .raised)]) .raised

theorem Serves.cons (hserves : Serves hs called ends out) (p : Nat × Handler) :
    Serves (p :: hs) (p :: called) ((p.1, .returned) :: ends) out := by
  cases hserves with
  | all => exact .all
  | @cut pre post q heq =>
    have hcons : p :: hs = (p :: pre) ++ q :: post := congrArg (p :: ·) heq
    exact .cut hcons

def calledBy? (n : Nat) : Deed → Option (Nat × Handler × Event)
  | .called m i h e => if m = n then some (i, h, e) else none
  | _ => none

def leftBy? (n : Nat) : Deed → Option (Nat × Outcome)
  | .left m i out => if m = n then some (i, out) else none
  | _ => none

def callsOf (n : Nat) (deeds : List Deed) : List (Nat × Handler × Event) :=
  deeds.filterMap (calledBy? n)

def endsOf (n : Nat) (deeds : List Deed) : List (Nat × Outcome) :=
  deeds.filterMap (leftBy? n)

theorem callsOf_append (n : Nat) (xs ys : List Deed) :
    callsOf n (xs ++ ys) = callsOf n xs ++ callsOf n ys :=
  List.filterMap_append

theorem endsOf_append (n : Nat) (xs ys : List Deed) :
    endsOf n (xs ++ ys) = endsOf n xs ++ endsOf n ys :=
  List.filterMap_append

theorem callsOf_cons (n : Nat) (d : Deed) (ds : List Deed) :
    callsOf n (d :: ds) = (calledBy? n d).toList ++ callsOf n ds :=
  filterMap_cons_toList _ d ds

theorem endsOf_cons (n : Nat) (d : Deed) (ds : List Deed) :
    endsOf n (d :: ds) = (leftBy? n d).toList ++ endsOf n ds :=
  filterMap_cons_toList _ d ds

theorem calledBy?_eq_none (hd : d.number? ≠ some n) : calledBy? n d = none := by
  cases d with
  | called m i h e => exact if_neg fun hm => hd (congrArg some hm)
  | _ => rfl

theorem leftBy?_eq_none (hd : d.number? ≠ some n) : leftBy? n d = none := by
  cases d with
  | left m i out => exact if_neg fun hm => hd (congrArg some hm)
  | _ => rfl

theorem callsOf_eq_nil (hds : ∀ d ∈ ds, d.number? ≠ some n) : callsOf n ds = [] :=
  List.filterMap_eq_nil_iff.mpr fun d hm => calledBy?_eq_none (hds d hm)

theorem endsOf_eq_nil (hds : ∀ d ∈ ds, d.number? ≠ some n) : endsOf n ds = [] :=
  List.filterMap_eq_nil_iff.mpr fun d hm => leftBy?_eq_none (hds d hm)

theorem calls_of_call (hds : ∀ d ∈ ds, d.number? ≠ some n) :
    callsOf n (.called n i h e :: (ds ++ .left n i out :: ds')) = (i, h, e) :: callsOf n ds' ∧
      endsOf n (.called n i h e :: (ds ++ .left n i out :: ds')) = (i, out) :: endsOf n ds' := by
  rw [callsOf_cons, callsOf_append, callsOf_cons, callsOf_eq_nil hds, endsOf_cons, endsOf_append,
    endsOf_cons, endsOf_eq_nil hds]
  simp [calledBy?, leftBy?]

/-- Whether a panic is in flight before these deeds and after them: while one is, every deed is a
callback or a dispatch that it leaves, and while none is, no deed is. -/
inductive Raising : Bool → List Deed → Bool → Prop
  | nil {p : Bool} : Raising p [] p
  | cons {p q : Bool} {d : Deed} {ds : List Deed} (hd : d.unwinds = p)
      (hrest : Raising d.raises ds q) : Raising p (d :: ds) q

theorem Raising.append {p q r : Bool} (hx : Raising p xs q) (hy : Raising q ys r) :
    Raising p (xs ++ ys) r := by
  induction hx with
  | nil => exact hy
  | cons hd hrest ih => exact .cons hd (ih hy)

def Attends (os : List Observer) (n : Nat) (e : Event) (during : List Deed) (out : Outcome) :
    Prop :=
  ∃ hs called, Selects os e hs ∧ Serves hs called (endsOf n during) out ∧
    callsOf n during = called.map (fun p => (p.1, p.2, e)) ∧ Raising false during out.isRaised

theorem Serves.called_prefix (hserves : Serves hs called ends out) : called <+: hs := by
  cases hserves with
  | all => exact List.prefix_rfl
  | cut heq => exact ⟨_, by rw [heq, List.append_assoc, List.singleton_append]⟩

theorem Attends.lt (ha : Attends os n e during out) {e' : Event}
    (hm : (i, h, e') ∈ callsOf n during) : i < os.length := by
  obtain ⟨hs, called, hselects, hserves, hcalls, -⟩ := ha
  rw [hcalls] at hm
  obtain ⟨⟨j, h'⟩, hcalled, heq⟩ := List.mem_map.mp hm
  obtain ⟨rfl, -⟩ := Prod.mk.inj heq
  exact hselects.lt (hserves.called_prefix.subset hcalled)

theorem Attends.nodup (ha : Attends os n e during out) : (callsOf n during).Nodup := by
  obtain ⟨hs, called, hselects, hserves, hcalls, -⟩ := ha
  rw [hcalls]
  refine List.pairwise_map.mpr ((hselects.ordered.sublist hserves.called_prefix.sublist).imp ?_)
  intro p q hlt heq
  exact absurd (Prod.mk.inj heq).1 (Nat.ne_of_lt hlt)

theorem Serves.called_or_raised (hserves : Serves hs called ends out)
    (hordered : hs.Pairwise fun p q => p.1 < q.1) (hm : (i, h) ∈ hs) :
    (i, h) ∈ called ∨ out = .raised ∧ ∃ j < i, (j, .raised) ∈ ends := by
  cases hserves with
  | all => exact .inl hm
  | @cut pre post p heq =>
    subst heq
    rw [List.append_cons] at hm hordered
    refine (List.mem_append.mp hm).imp_right fun hpost => ?_
    have hlt := (List.pairwise_append.mp hordered).2.2 p (by simp) (i, h) hpost
    exact ⟨rfl, p.1, hlt, List.mem_append_right _ (List.mem_singleton_self _)⟩

theorem Attends.called_once (ha : Attends os n e during out) (ho : os[i]? = some o)
    (ht : o.Takes h e) :
    (callsOf n during).count (i, h, e) = 1 ∨
      out = .raised ∧ ∃ j < i, (j, .raised) ∈ endsOf n during := by
  have hnodup := ha.nodup
  obtain ⟨hs, called, hselects, hserves, hcalls, -⟩ := ha
  have hm : (i, h) ∈ hs := (hselects.mem_iff i h).mpr ⟨o, ho, ht⟩
  refine (hserves.called_or_raised hselects.ordered hm).imp_left fun hcalled => ?_
  exact List.count_eq_one_of_mem hnodup
    (hcalls ▸ List.mem_map_of_mem (f := fun p => (p.1, p.2, e)) hcalled)

end Bus

end Fanout
