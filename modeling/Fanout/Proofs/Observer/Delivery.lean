import Fanout.Observer.Bus
import Mathlib.Data.List.Basic

namespace Fanout.Bus

variable {behaviour : Behaviour} {nested : Event → Bus → Option (Bus × Outcome)} {b b' : Bus}
  {e : Event} {i : Nat}

structure Heard where
  dispatch : Nat
  handler : Handler
  event : Event
  deriving DecidableEq, Repr

def heardBy? (i : Nat) : Record → Option Heard
  | .call dispatch observer handler event =>
      if observer = i then some { dispatch, handler, event } else none
  | .size _ => none

def heard (b : Bus) (i : Nat) : List Heard :=
  b.log.filterMap (heardBy? i)

def Returned (behaviour : Behaviour) (b : Bus) : Prop :=
  ∀ h n, n < b.calls h → Act.raise ∉ behaviour h n

def Raises (behaviour : Behaviour) : Prop :=
  ∃ h n, Act.raise ∈ behaviour h n

theorem calls_note_le (b : Bus) (r : Record) (h : Handler) : b.calls h ≤ (b.note r).calls h := by
  simp [calls, note, List.countP_append]

theorem calls_note_call (b : Bus) (number observer : Nat) (h : Handler) (e : Event) :
    b.calls h < (b.note (.call number observer h e)).calls h := by
  simp [calls, note, List.countP_append, isCallOf]

structure Performed (b b' : Bus) : Prop where
  observers : b.observers <+: b'.observers
  begun : b'.begun = b.begun
  calls : ∀ h, b'.calls h = b.calls h
  heard : ∀ i, b'.heard i = b.heard i

theorem performed_refl (b : Bus) : Performed b b :=
  ⟨List.prefix_rfl, rfl, fun _ => rfl, fun _ => rfl⟩

theorem Performed.subscribe {b₁ : Bus} {o : Observer} (h : Performed (b.subscribe o) b₁) :
    Performed b b₁ :=
  ⟨(List.prefix_append _ _).trans h.observers, h.begun, h.calls, h.heard⟩

theorem Performed.measure {b₁ : Bus} {n : Nat} (h : Performed (b.note (.size n)) b₁) :
    Performed b b₁ where
  observers := h.observers
  begun := h.begun
  calls handler := by simpa [Bus.calls, note, isCallOf] using h.calls handler
  heard i := by
    rw [h.heard i, Bus.heard, note, List.filterMap_append]
    exact List.append_nil _

theorem perform_outside (nested : Event → Bus → Option (Bus × Outcome)) {acts : List Act}
    (ha : ∀ act ∈ acts, isOutside act = true) (b : Bus) :
    ∃ b' out, perform nested acts b = some (b', out) ∧ Performed b b' ∧
      (out = .raised → Act.raise ∈ acts) := by
  induction acts generalizing b with
  | nil => exact ⟨b, .returned, rfl, performed_refl b, nofun⟩
  | cons act acts ih =>
    have hrest : ∀ act ∈ acts, isOutside act = true :=
      fun act hm => ha act (List.mem_cons_of_mem _ hm)
    cases act with
    | subscribe o =>
      obtain ⟨b', out, hp, hd, hr⟩ := ih hrest (b.subscribe o)
      exact ⟨b', out, hp, hd.subscribe, fun h => List.mem_cons_of_mem _ (hr h)⟩
    | measure =>
      obtain ⟨b', out, hp, hd, hr⟩ := ih hrest (b.note (.size b.observers.length))
      exact ⟨b', out, hp, hd.measure, fun h => List.mem_cons_of_mem _ (hr h)⟩
    | raise => exact ⟨b, .raised, rfl, performed_refl b, fun _ => List.mem_cons_self⟩
    | dispatch e => exact absurd (ha _ List.mem_cons_self) (by simp [isOutside])

def callRecord (number : Nat) (e : Event) (p : Nat × Handler) : Record :=
  .call number p.1 p.2 e

structure Dispatched (behaviour : Behaviour) (number : Nat) (e : Event) (hs : List (Nat × Handler))
    (b b' : Bus) (out : Outcome) : Prop where
  observers : b.observers <+: b'.observers
  begun : b'.begun = b.begun
  calls : ∀ h, b.calls h ≤ b'.calls h
  heard : ∃ called, called <+: hs ∧ (out = .returned → called = hs) ∧
    ∀ i, b'.heard i = b.heard i ++ (called.map (callRecord number e)).filterMap (heardBy? i)
  raised : out = .raised → ∃ h n, n < b'.calls h ∧ Act.raise ∈ behaviour h n

theorem callAll_outside (nested : Event → Bus → Option (Bus × Outcome)) (number : Nat) (e : Event)
    (hb : ∀ h n, ∀ act ∈ behaviour h n, isOutside act = true) (hs : List (Nat × Handler))
    (b : Bus) :
    ∃ b' out, callAll behaviour nested number e hs b = some (b', out) ∧
      Dispatched behaviour number e hs b b' out := by
  induction hs generalizing b with
  | nil =>
    exact ⟨b, .returned, rfl, List.prefix_rfl, rfl, fun _ => Nat.le_refl _,
      ⟨[], List.prefix_rfl, fun _ => rfl, by simp⟩, nofun⟩
  | cons p hs ih =>
    obtain ⟨j, h⟩ := p
    obtain ⟨b₁, out, hp, hd, hraise⟩ :=
      perform_outside nested (hb h (b.calls h)) (b.note (.call number j h e))
    have hle (k : Handler) : b.calls k ≤ b₁.calls k :=
      hd.calls k ▸ calls_note_le b _ k
    have hlt : b.calls h < b₁.calls h := hd.calls h ▸ calls_note_call b number j h e
    have hfirst (i : Nat) : b₁.heard i =
        b.heard i ++ ([(j, h)].map (callRecord number e)).filterMap (heardBy? i) := by
      rw [hd.heard i]
      simp [Bus.heard, note, callRecord]
    cases out with
    | raised =>
      refine ⟨b₁, .raised, by simp [callAll, hp], hd.observers, hd.begun, hle,
        ⟨[(j, h)], ?_, nofun, hfirst⟩, fun _ => ⟨h, b.calls h, hlt, hraise rfl⟩⟩
      exact List.prefix_append [(j, h)] hs
    | returned =>
      obtain ⟨b₂, out, hc, hrest⟩ := ih b₁
      obtain ⟨called, hprefix, hall, hheard⟩ := hrest.heard
      refine ⟨b₂, out, by simp [callAll, hp, hc], hd.observers.trans hrest.observers,
        hrest.begun.trans hd.begun, fun k => Nat.le_trans (hle k) (hrest.calls k),
        ⟨(j, h) :: called, ?_, ?_, ?_⟩, hrest.raised⟩
      · exact List.cons_prefix_cons.mpr ⟨rfl, hprefix⟩
      · intro hout
        rw [hall hout]
      · intro i
        rw [hheard i, hfirst i, List.append_assoc, ← List.filterMap_append, ← List.map_append]
        rfl

theorem filterMap_zipIdx_at {α β : Type} (f : α → Option β) (xs : List α) (n i : Nat) :
    (xs.zipIdx n).filterMap (fun p => if p.2 = i then f p.1 else none) =
      if n ≤ i then (xs[i - n]?.bind f).toList else [] := by
  induction xs generalizing n with
  | nil => simp
  | cons x xs ih =>
    rw [List.zipIdx_cons, List.filterMap_cons, ih]
    rcases Nat.lt_trichotomy n i with hlt | rfl | hlt
    · obtain ⟨k, rfl⟩ : ∃ k, i = n + 1 + k := ⟨i - (n + 1), by omega⟩
      have hsub : n + 1 + k - n = k + 1 := by omega
      simp [hsub, show n ≠ n + 1 + k by omega, show n ≤ n + 1 + k by omega]
    · cases hf : f x <;> simp [hf, show ¬ n + 1 ≤ n by omega]
    · simp [Nat.ne_of_gt hlt, show ¬ n ≤ i by omega, show ¬ n + 1 ≤ i by omega]

def callOf (number : Nat) (o : Observer) (e : Event) : Option Heard :=
  (o.handler? e).map fun handler => { dispatch := number, handler, event := e }

theorem filterMap_handlers (b : Bus) (e : Event) (i number : Nat) :
    ((b.handlers e).map (callRecord number e)).filterMap (heardBy? i) =
      (b.observers[i]?.bind fun o => callOf number o e).toList := by
  have hat := filterMap_zipIdx_at (fun o => callOf number o e) b.observers 0 i
  rw [if_pos (Nat.zero_le i), Nat.sub_zero] at hat
  rw [← hat, handlers, List.filterMap_map, List.filterMap_filterMap]
  refine List.filterMap_congr fun p _ => ?_
  cases hh : p.1.handler? e <;> simp [hh, callRecord, heardBy?, callOf]

theorem filter_outside_isOutside (h : Handler) (n : Nat) :
    ∀ act ∈ (behaviour h n).filter isOutside, isOutside act = true :=
  fun _ hm => (List.mem_filter.mp hm).2

theorem dispatched_deliver (behaviour : Behaviour) (b : Bus) (e : Event) :
    Dispatched behaviour b.begun e (b.handlers e) { b with begun := b.begun + 1 }
      (b.deliver behaviour e).1 (b.deliver behaviour e).2 := by
  let outside : Behaviour := fun h n => (behaviour h n).filter isOutside
  obtain ⟨b', out, hc, hd⟩ := callAll_outside (dispatchWithin outside 0) b.begun e
    filter_outside_isOutside (b.handlers e) { b with begun := b.begun + 1 }
  have hdeliver : b.deliver behaviour e = (b', out) := by
    unfold deliver dispatch dispatchWithin
    rw [hc]
    rfl
  rw [hdeliver]
  refine ⟨hd.observers, hd.begun, hd.calls, hd.heard, fun hout => ?_⟩
  obtain ⟨h, n, hn, hm⟩ := hd.raised hout
  exact ⟨h, n, hn, (List.mem_filter.mp hm).1⟩

theorem deliver_raised (h : (b.deliver behaviour e).2 = .raised) : Raises behaviour := by
  obtain ⟨handler, n, -, hm⟩ := (dispatched_deliver behaviour b e).raised h
  exact ⟨handler, n, hm⟩

theorem Returned.mono (h : b'.Returned behaviour) (hle : ∀ k, b.calls k ≤ b'.calls k) :
    b.Returned behaviour :=
  fun k n hn => h k n (Nat.lt_of_lt_of_le hn (hle k))

theorem calls_deliver_le (behaviour : Behaviour) (b : Bus) (e : Event) (h : Handler) :
    b.calls h ≤ (b.deliver behaviour e).1.calls h :=
  (dispatched_deliver behaviour b e).calls h

theorem begun_deliver (behaviour : Behaviour) (b : Bus) (e : Event) :
    (b.deliver behaviour e).1.begun = b.begun + 1 :=
  (dispatched_deliver behaviour b e).begun

theorem observers_deliver (behaviour : Behaviour) (b : Bus) (e : Event) :
    b.observers <+: (b.deliver behaviour e).1.observers :=
  (dispatched_deliver behaviour b e).observers

theorem deliver_returned (h : (b.deliver behaviour e).1.Returned behaviour) :
    (b.deliver behaviour e).2 = .returned := by
  cases hout : (b.deliver behaviour e).2 with
  | returned => rfl
  | raised =>
    obtain ⟨k, n, hn, hm⟩ := (dispatched_deliver behaviour b e).raised hout
    exact absurd hm (h k n hn)

theorem heard_deliver (h : (b.deliver behaviour e).1.Returned behaviour) (i : Nat) :
    (b.deliver behaviour e).1.heard i =
      b.heard i ++ (b.observers[i]?.bind fun o => callOf b.begun o e).toList := by
  obtain ⟨called, -, hall, hheard⟩ := (dispatched_deliver behaviour b e).heard
  rw [hheard i, hall (deliver_returned h), filterMap_handlers]
  rfl

theorem unheard_deliver (behaviour : Behaviour) (e : Event) (hi : b.observers.length ≤ i) :
    (b.deliver behaviour e).1.heard i = b.heard i := by
  obtain ⟨called, ⟨rest, hrest⟩, -, hheard⟩ := (dispatched_deliver behaviour b e).heard
  have hnone := filterMap_handlers b e i b.begun
  rw [← hrest, List.map_append, List.filterMap_append, List.getElem?_eq_none hi] at hnone
  rw [hheard i, (List.append_eq_nil_iff.mp hnone).1]
  exact List.append_nil _

inductive Delivers (behaviour : Behaviour) (b : Bus) : List Event → Bus → Prop
  | start : Delivers behaviour b [] b
  | subscribe {es : List Event} {b' : Bus} (h : Delivers behaviour b es b') (o : Observer) :
      Delivers behaviour b es (b'.subscribe o)
  | deliver {es : List Event} {b' : Bus} (h : Delivers behaviour b es b') (e : Event) :
      Delivers behaviour b (es ++ [e]) (b'.deliver behaviour e).1

def Orderly (b : Bus) : Prop :=
  ∀ ⦃i⦄, b.observers.length ≤ i → b.heard i = []

namespace Delivers

variable {es es' : List Event} {b'' : Bus} {o : Observer}

theorem trans (h : Delivers behaviour b es b') (h' : Delivers behaviour b' es' b'') :
    Delivers behaviour b (es ++ es') b'' := by
  induction h' with
  | start => exact (List.append_nil es).symm ▸ h
  | subscribe _ o ih => exact ih.subscribe o
  | deliver _ e ih => exact List.append_assoc .. ▸ ih.deliver e

theorem begun (h : Delivers behaviour b es b') : b'.begun = b.begun + es.length := by
  induction h with
  | start => rfl
  | subscribe _ _ ih => exact ih
  | deliver _ e ih =>
    rw [begun_deliver, ih, List.length_append]
    rfl

theorem observers (h : Delivers behaviour b es b') : b.observers <+: b'.observers := by
  induction h with
  | start => exact List.prefix_rfl
  | subscribe _ _ ih => exact ih.trans (List.prefix_append _ _)
  | deliver _ e ih => exact ih.trans (observers_deliver behaviour _ e)

theorem calls_le (h : Delivers behaviour b es b') (k : Handler) : b.calls k ≤ b'.calls k := by
  induction h with
  | start => exact Nat.le_refl _
  | subscribe _ _ ih => exact ih
  | deliver _ e ih => exact Nat.le_trans ih (calls_deliver_le behaviour _ e k)

theorem observer (h : Delivers behaviour b es b') (ho : b.observers[i]? = some o) :
    b'.observers[i]? = some o := by
  obtain ⟨new, hnew⟩ := h.observers
  rw [← hnew, List.getElem?_append_left (List.getElem?_eq_some_iff.mp ho).1, ho]

theorem heard (h : Delivers behaviour b es b') (hr : b'.Returned behaviour)
    (ho : b.observers[i]? = some o) :
    b'.heard i = b.heard i ++ (es.zipIdx b.begun).filterMap fun p => callOf p.2 o p.1 := by
  induction h with
  | start => exact (List.append_nil _).symm
  | subscribe _ _ ih => exact ih hr
  | @deliver es b₁ h e ih =>
    have hr₁ : b₁.Returned behaviour := hr.mono (calls_deliver_le behaviour b₁ e)
    rw [heard_deliver hr, ih hr₁, h.observer ho, h.begun, List.zipIdx_append, List.filterMap_append,
      List.append_assoc]
    cases hc : callOf (b.begun + es.length) o e <;> simp [hc]

theorem orderly (h : Delivers behaviour b es b') (hb : b.Orderly) : b'.Orderly := by
  induction h with
  | start => exact hb
  | @subscribe es b₁ _ o ih =>
    intro i hi
    simp only [Bus.subscribe, List.length_append] at hi
    exact ih (Nat.le_of_add_right_le hi)
  | @deliver es b₁ h e ih =>
    intro i hi
    have hold : b₁.observers.length ≤ i :=
      Nat.le_trans (observers_deliver behaviour b₁ e).length_le hi
    rw [unheard_deliver behaviour e hold, ih hold]

end Delivers

end Fanout.Bus
