import Fanout.Proofs.Connection.Waiting
import Mathlib.Logic.Relation

namespace Fanout

inductive Actor where
  | task (t : Nat)
  | receiver (c : Nat)
  deriving DecidableEq, Repr

/-- The tasks of a process as they stand: who waits for a lock that another one has or for another
one to end, who has not ended yet, who can go on now, and who waits for a socket or a timer. -/
structure Scene where
  WaitsFor : Actor → Actor → Prop
  Active : Actor → Prop
  Moves : Actor → Prop
  Outside : Actor → Prop

namespace Scene

variable {w : Scene} {rank : Actor → Nat} {p q : Actor}

structure DeadlockFree (w : Scene) : Prop where
  acyclic : ∀ p, ¬ Relation.TransGen w.WaitsFor p p
  ends : ∀ {p q}, w.Active p → Relation.ReflTransGen w.WaitsFor p q →
    ∃ r, Relation.ReflTransGen w.WaitsFor q r ∧ (∀ r', ¬ w.WaitsFor r r') ∧
      (w.Moves r ∨ w.Outside r)
  receivers : ∀ {c}, w.Active (.receiver c) →
    (∀ q, ¬ w.WaitsFor (.receiver c) q) ∧ w.Moves (.receiver c)

structure Ranked (w : Scene) (rank : Actor → Nat) : Prop where
  falls : ∀ {p q}, w.WaitsFor p q → rank q < rank p
  active : ∀ {p q}, w.Active p → w.WaitsFor p q → w.Active q
  free : ∀ {p}, w.Active p → (∃ q, w.WaitsFor p q) ∨ w.Moves p ∨ w.Outside p

namespace Ranked

theorem falls_along (h : w.Ranked rank) (hpq : Relation.TransGen w.WaitsFor p q) :
    rank q < rank p := by
  induction hpq with
  | single hw => exact h.falls hw
  | tail _ hw ih => exact Nat.lt_trans (h.falls hw) ih

theorem active_along (h : w.Ranked rank) (hp : w.Active p)
    (hpq : Relation.ReflTransGen w.WaitsFor p q) : w.Active q := by
  induction hpq with
  | refl => exact hp
  | tail _ hw ih => exact h.active ih hw

theorem exists_end (h : w.Ranked rank) (hp : w.Active p) :
    ∃ r, Relation.ReflTransGen w.WaitsFor p r ∧ (∀ r', ¬ w.WaitsFor r r') ∧
      (w.Moves r ∨ w.Outside r) := by
  induction hn : rank p using Nat.strongRecOn generalizing p with
  | ind n ih =>
    by_cases hw : ∃ q, w.WaitsFor p q
    · obtain ⟨q, hq⟩ := hw
      obtain ⟨r, hr, hend⟩ := ih (rank q) (hn ▸ h.falls hq) (h.active hp hq) rfl
      exact ⟨r, hr.head hq, hend⟩
    · exact ⟨p, .refl, fun q hq => hw ⟨q, hq⟩, (h.free hp).resolve_left hw⟩

theorem deadlockFree (h : w.Ranked rank)
    (receivers : ∀ c, w.Active (.receiver c) →
      (∀ q, ¬ w.WaitsFor (.receiver c) q) ∧ w.Moves (.receiver c)) : w.DeadlockFree where
  acyclic _ hp := Nat.lt_irrefl _ (h.falls_along hp)
  ends hp hpq := h.exists_end (h.active_along hp hpq)
  receivers := receivers _

end Ranked

end Scene

def Begun (xs : List Connection) (c i : Nat) : Prop :=
  ∃ x, xs[c]? = some x ∧ i < x.calls.length

def Pending (xs : List Connection) (c i : Nat) : Prop :=
  ∃ x call, xs[c]? = some x ∧ x.calls[i]? = some call ∧ call.ending? = none

structure Attended (xs : List Connection) (awaited : Nat → Option (Nat × Nat)) : Prop where
  attended : ∀ {c i : Nat}, Pending xs c i → ∃ t, awaited t = some (c, i)
  begun : ∀ {t c i : Nat}, awaited t = some (c, i) → Begun xs c i

inductive CallWaits (xs : List Connection) (awaited : Nat → Option (Nat × Nat)) :
    Actor → Actor → Prop
  | call {t u c i j : Nat} {x : Connection} (ht : awaited t = some (c, i))
      (hx : xs[c]? = some x) (hw : x.Awaits i (.call j)) (hu : awaited u = some (c, j)) :
      CallWaits xs awaited (.task t) (.task u)
  | receiver {t c i : Nat} {x : Connection} (ht : awaited t = some (c, i))
      (hx : xs[c]? = some x) (hw : x.Awaits i .receiver) :
      CallWaits xs awaited (.task t) (.receiver c)

def awaitedRank (xs : List Connection) : Option (Nat × Nat) → Nat
  | some (c, i) => (xs[c]?).elim 0 fun x => x.callRank i
  | none => 0

def callerRank (xs : List Connection) (awaited : Nat → Option (Nat × Nat)) : Actor → Nat
  | .task t => awaitedRank xs (awaited t)
  | .receiver _ => 0

inductive Moves {α : Type} (resume : Nat → Option α) (on : Nat → Connection.Action → Option α)
    (awaited : Nat → Option (Nat × Nat)) : Actor → Prop
  | resume {t : Nat} {s : α} (h : resume t = some s) : Moves resume on awaited (.task t)
  | call {t c i : Nat} {a : Connection.Action} {s : α} (ht : awaited t = some (c, i))
      (ha : a.promptCall? = some i) (h : on c a = some s) : Moves resume on awaited (.task t)
  | receive {c : Nat} {a : Connection.Action} {s : α} (ha : a.isReceive = true)
      (h : on c a = some s) : Moves resume on awaited (.receiver c)

def Writes (xs : List Connection) (awaited : Nat → Option (Nat × Nat)) (t : Nat) : Prop :=
  ∃ c i x payload written, awaited t = some (c, i) ∧ xs[c]? = some x ∧
    x.calls[i]? = some (.send payload (.writing written))

/-- The calls on the connections of `xs'` beside those on `xs`: begun ones stay, and whatever is
under way was so before or is new. -/
structure Continues (xs xs' : List Connection) (new : Option (Nat × Nat)) : Prop where
  begun : ∀ {c i : Nat}, Begun xs c i → Begun xs' c i
  pending : ∀ {c i : Nat}, Pending xs' c i → Pending xs c i ∨ new = some (c, i)
  new_begun : ∀ {c i : Nat}, new = some (c, i) → Begun xs' c i

variable {xs xs' : List Connection} {awaited awaited' : Nat → Option (Nat × Nat)} {t c i : Nat}
  {new : Option (Nat × Nat)} {x x' : Connection}

theorem awaitedRank_le (xs : List Connection) (call : Option (Nat × Nat)) :
    awaitedRank xs call ≤ 3 := by
  cases call with
  | none => simp [awaitedRank]
  | some call =>
    cases hx : xs[call.1]? with
    | none => simp [awaitedRank, hx]
    | some x => simpa [awaitedRank, hx] using x.callRank_le call.2

theorem CallWaits.rank_lt {p q : Actor} (h : CallWaits xs awaited p q)
    (sound : ∀ {c : Nat} {x : Connection}, xs[c]? = some x → x.Sound) :
    callerRank xs awaited q < callerRank xs awaited p := by
  cases h with
  | call ht hx hw hu =>
    simp only [callerRank, ht, hu, awaitedRank, hx, Option.elim_some]
    exact (sound hx).callRank_lt hw
  | receiver ht hx hw =>
    simp only [callerRank, ht, awaitedRank, hx, Option.elim_some]
    exact Connection.callRank_pos hw

theorem not_pending_of_ended {ending : CallEnd} (hx : xs[c]? = some x)
    (he : x.ending? i = some ending) : ¬ Pending xs c i := by
  rintro ⟨y, call, hy, hcall, hu⟩
  obtain rfl := Option.some.inj (hx.symm.trans hy)
  simp [Connection.ending?, hcall, hu] at he

theorem continues_same (xs : List Connection) : Continues xs xs none :=
  ⟨id, .inl, nofun⟩

theorem continues_concat (xs : List Connection) (hx : x.calls = []) :
    Continues xs (xs ++ [x]) none where
  begun := fun ⟨y, hy, hi⟩ => ⟨y, getElem?_concat_eq_some.mpr (.inr hy), hi⟩
  pending := by
    rintro c i ⟨y, call, hy, hcall, hu⟩
    rcases getElem?_concat_eq_some.mp hy with ⟨-, rfl⟩ | hold
    · simp [hx] at hcall
    · exact .inl ⟨y, call, hold, hcall, hu⟩
  new_begun := nofun

theorem begun_set (hx : xs[c]? = some x) (hlen : x.calls.length ≤ x'.calls.length) {d i : Nat}
    (h : Begun xs d i) : Begun (xs.set c x') d i := by
  obtain ⟨y, hy, hi⟩ := h
  by_cases hd : d = c
  · subst hd
    obtain rfl := Option.some.inj (hx.symm.trans hy)
    exact ⟨x', (getElem?_set_eq_some hx).mpr (.inl ⟨rfl, rfl⟩), by omega⟩
  · exact ⟨y, (getElem?_set_eq_some hx).mpr (.inr ⟨hd, hy⟩), hi⟩

theorem begun_call {call : Call} (hx : xs[c]? = some x) (hc : x'.calls = x.calls ++ [call]) :
    Begun (xs.set c x') c x.calls.length :=
  ⟨x', (getElem?_set_eq_some hx).mpr (.inl ⟨rfl, rfl⟩), by simp [hc]⟩

theorem pending_call {call : Call} (hx : xs[c]? = some x) (hc : x'.calls = x.calls ++ [call])
    {d i : Nat} (h : Pending (xs.set c x') d i) :
    Pending xs d i ∨ call.ending? = none ∧ d = c ∧ i = x.calls.length := by
  obtain ⟨y, other, hy, hcall, hu⟩ := h
  rcases (getElem?_set_eq_some hx).mp hy with ⟨rfl, rfl⟩ | ⟨-, hold⟩
  · rw [hc] at hcall
    rcases getElem?_concat_eq_some.mp hcall with ⟨rfl, rfl⟩ | hold
    · exact .inr ⟨hu, rfl, rfl⟩
    · exact .inl ⟨x, other, hx, hold, hu⟩
  · exact .inl ⟨y, other, hold, hcall, hu⟩

theorem continues_call {call : Call} (hx : xs[c]? = some x) (hc : x'.calls = x.calls ++ [call]) :
    Continues xs (xs.set c x') (some (c, x.calls.length)) where
  begun := begun_set hx (by simp [hc])
  pending := fun h => (pending_call hx hc h).imp_right fun ⟨_, hd, hi⟩ => by rw [hd, hi]
  new_begun := by
    intro d i hnew
    obtain ⟨rfl, rfl⟩ := Prod.mk.inj (Option.some.inj hnew)
    exact begun_call hx hc

theorem continues_ended_call {call : Call} (hx : xs[c]? = some x)
    (hc : x'.calls = x.calls ++ [call]) (he : call.ending? ≠ none) :
    Continues xs (xs.set c x') none where
  begun := begun_set hx (by simp [hc])
  pending := fun h => .inl ((pending_call hx hc h).resolve_right fun hnew => he hnew.1)
  new_begun := nofun

theorem continues_listen (hx : xs[c]? = some x) : Continues xs (xs.set c x.listen.1) none := by
  obtain ⟨failure, hc⟩ := x.calls_listen
  exact continues_ended_call hx hc nofun

theorem Continues.trans {xs'' : List Connection} (h : Continues xs xs' none)
    (h' : Continues xs' xs'' new) : Continues xs xs'' new where
  begun := fun hb => h'.begun (h.begun hb)
  pending := fun hp => (h'.pending hp).imp_left fun hp' => (h.pending hp').resolve_right nofun
  new_begun := h'.new_begun

theorem continues_turn {a : Connection.Action} (hx : xs[c]? = some x)
    (ht : Connection.Turn x a x') (ha : a.isCall = false) : Continues xs (xs.set c x') none where
  begun := by
    refine begun_set hx ?_
    rcases ht.calls with hsame | ⟨_, _, hc⟩ | ⟨_, _, _, _, _, hc⟩ <;> simp_all
  pending := by
    rintro d i ⟨y, call, hy, hcall, hu⟩
    rcases (getElem?_set_eq_some hx).mp hy with ⟨rfl, rfl⟩ | ⟨-, hold⟩
    · rcases ht.call_origin hcall with hold | ⟨hi, -⟩ | ⟨old, hold, hm⟩
      · exact .inl ⟨x, call, hx, hold, hu⟩
      · have hlen := ht.calls_length ha
        obtain ⟨hlt, -⟩ := List.getElem?_eq_some_iff.mp hcall
        omega
      · exact .inl ⟨x, old, hx, hold, hm.unended⟩
    · exact .inl ⟨y, call, hold, hcall, hu⟩
  new_begun := nofun

namespace Attended

theorem goes_on (h : Attended xs awaited) (hxs : Continues xs xs' new)
    (others : ∀ u, u ≠ t → awaited' u = awaited u)
    (ended : ∀ c i, awaited t = some (c, i) → ¬ Pending xs c i) (ht : awaited' t = new) :
    Attended xs' awaited' where
  attended := by
    intro c i hp
    rcases hxs.pending hp with hold | hnew
    · obtain ⟨u, hu⟩ := h.attended hold
      refine ⟨u, (others u ?_).trans hu⟩
      rintro rfl
      exact ended c i hu hold
    · exact ⟨t, ht.trans hnew⟩
  begun := by
    intro u c i hu
    by_cases hut : u = t
    · subst hut
      exact hxs.new_begun (ht.symm.trans hu)
    · exact hxs.begun (h.begun ((others u hut).symm.trans hu))

theorem same (h : Attended xs awaited) (hxs : Continues xs xs' none)
    (all : ∀ u, awaited' u = awaited u) : Attended xs' awaited' where
  attended := by
    intro c i hp
    obtain ⟨u, hu⟩ := h.attended ((hxs.pending hp).resolve_right nofun)
    exact ⟨u, (all u).trans hu⟩
  begun := fun hu => hxs.begun (h.begun ((all _).symm.trans hu))

end Attended

section Going

variable {α : Type} {resume : Nat → Option α} {on : Nat → Connection.Action → Option α}
  (goes : ∀ {c : Nat} {x : Connection} {a : Connection.Action}, xs[c]? = some x →
    a.isCall = false → x.Goes a → ∃ s, on c a = some s)
include goes

theorem receiver_moves (hx : xs[c]? = some x) (hr : x.isReceiving = true) :
    Moves resume on awaited (.receiver c) := by
  obtain ⟨a, ha, hgoes⟩ := Connection.receiver_goes hr
  obtain ⟨s, hs⟩ := goes hx (Connection.Action.not_call_of_receive ha) hgoes
  exact .receive ha hs

theorem Attended.caller_free (h : Attended xs awaited)
    (sound : ∀ {c : Nat} {x : Connection}, xs[c]? = some x → x.Sound)
    (ht : awaited t = some (c, i))
    (ended : ∀ {x : Connection} {ending : CallEnd}, xs[c]? = some x →
      x.ending? i = some ending → ∃ s, resume t = some s) :
    (∃ q, CallWaits xs awaited (.task t) q) ∨ Moves resume on awaited (.task t) ∨
      Writes xs awaited t := by
  obtain ⟨x, hx, hlt⟩ := h.begun ht
  have hcall : x.calls[i]? = some x.calls[i] := List.getElem?_eq_getElem hlt
  cases hend : x.calls[i].ending? with
  | some ending =>
    have he : x.ending? i = some ending := by simp [Connection.ending?, hcall, hend]
    obtain ⟨s, hs⟩ := ended hx he
    exact .inr (.inl (.resume hs))
  | none =>
    rcases (sound hx).call_goes_on hcall hend with ⟨o, ho⟩ | ⟨a, ha, hgoes⟩ | ⟨payload, written, hw⟩
    · cases o with
      | call j =>
        obtain ⟨other, hother, hu⟩ := (sound hx).unended_of_awaited ho
        obtain ⟨u, hu⟩ := h.attended ⟨x, other, hx, hother, hu⟩
        exact .inl ⟨_, .call ht hx ho hu⟩
      | receiver => exact .inl ⟨_, .receiver ht hx ho⟩
    · obtain ⟨s, hs⟩ := goes hx (Connection.Action.not_call_of_prompt ha) hgoes
      exact .inr (.inl (.call ht ha hs))
    · exact .inr (.inr ⟨c, i, x, payload, written, ht, hx, hcall.trans (congrArg some hw)⟩)

end Going

end Fanout
