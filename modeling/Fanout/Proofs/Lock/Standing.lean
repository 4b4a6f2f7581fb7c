import Fanout.Lock

namespace Fanout

theorem getElem?_set_eq_some {α : Type} {xs : List α} {i j : Nat} {x y z : α}
    (hi : xs[i]? = some x) :
    (xs.set i y)[j]? = some z ↔ j = i ∧ z = y ∨ j ≠ i ∧ xs[j]? = some z := by
  obtain ⟨hlt, -⟩ := List.getElem?_eq_some_iff.mp hi
  by_cases hji : j = i
  · subst hji
    simp [List.getElem?_set_self hlt, eq_comm]
  · simp [List.getElem?_set_ne (Ne.symm hji), hji]

theorem map_set_eq {α β : Type} {xs : List α} {i : Nat} {x y : α} (f : α → β)
    (hi : xs[i]? = some x) (hf : f y = f x) : (xs.set i y).map f = xs.map f := by
  obtain ⟨hlt, rfl⟩ := List.getElem?_eq_some_iff.mp hi
  rw [List.map_set, hf, ← List.getElem_map f (h := by simpa using hlt), List.set_getElem_self]

theorem getElem?_concat_eq_some {α : Type} {xs : List α} {j : Nat} {y z : α} :
    (xs ++ [y])[j]? = some z ↔ j = xs.length ∧ z = y ∨ xs[j]? = some z := by
  rcases Nat.lt_trichotomy j xs.length with hj | hj | hj
  · simp [List.getElem?_append_left hj, Nat.ne_of_lt hj]
  · subst hj
    simp [eq_comm]
  · simp [List.getElem?_append_right (Nat.le_of_lt hj), Nat.ne_of_gt hj, Nat.sub_ne_zero_of_lt hj,
      Nat.le_of_lt hj]

namespace Lock

inductive Standing where
  | outside
  | waiting
  | holding
  deriving DecidableEq, Repr

/-- The queue of a lock, read against a list that says for each caller how it stands to the lock. -/
structure Serves (l : Lock) (callers : List Standing) : Prop where
  nodup : l.queue.Nodup
  mem_iff : ∀ i, i ∈ l.queue ↔ callers[i]? = some .waiting ∨ callers[i]? = some .holding
  held : ∀ i, callers[i]? = some .holding → l.isHeldBy i = true

def moved (l : Lock) (i : Nat) : Standing → Standing → Lock
  | .outside, .outside => l
  | .outside, _ => l.join i
  | _, .outside => l.leave i
  | _, _ => l

theorem moved_cases (l : Lock) (i : Nat) (a b : Standing) :
    l.moved i a b = l ∨ l.moved i a b = l.join i ∨ l.moved i a b = l.leave i := by
  unfold moved
  split
  · exact .inl rfl
  · exact .inr (.inl rfl)
  · exact .inr (.inr rfl)
  · exact .inl rfl

theorem moved_within {l : Lock} {i : Nat} {a b : Standing} (ha : a ≠ .outside) (hb : b ≠ .outside) :
    l.moved i a b = l := by
  cases a with
  | outside => exact absurd rfl ha
  | waiting | holding =>
    cases b with
    | outside => exact absurd rfl hb
    | waiting | holding => rfl

theorem serves_empty : Serves {} [] := ⟨.nil, by simp, by simp⟩

theorem mem_of_isHeldBy {l : Lock} {i : Nat} (h : l.isHeldBy i = true) : i ∈ l.queue := by
  obtain ⟨rest, hq⟩ := (isHeldBy_iff l i).mp h
  simp [hq]

theorem exists_isHeldBy {l : Lock} {i : Nat} (h : i ∈ l.queue) : ∃ j, l.isHeldBy j = true := by
  cases hq : l.queue with
  | nil => simp [hq] at h
  | cons j rest => exact ⟨j, (isHeldBy_iff l j).mpr ⟨rest, hq⟩⟩

theorem nodup_join {l : Lock} {i : Nat} (h : l.queue.Nodup) (hi : i ∉ l.queue) :
    (l.join i).queue.Nodup := by
  refine List.nodup_append.mpr ⟨h, by simp, ?_⟩
  intro j hj k hk
  rw [List.mem_singleton.mp hk]
  exact fun hji => hi (hji ▸ hj)

theorem isHeldBy_moved {l : Lock} {i j : Nat} {a b : Standing} (h : l.isHeldBy i = true)
    (hij : i ≠ j) : (l.moved j a b).isHeldBy i = true := by
  rcases l.moved_cases j a b with heq | heq | heq <;> rw [heq]
  · exact h
  · exact isHeldBy_join h j
  · obtain ⟨rest, hq⟩ := (isHeldBy_iff l i).mp h
    simp [isHeldBy, leave, hq, hij]

namespace Serves

variable {l l' : Lock} {callers : List Standing} {i j : Nat} {a b : Standing}

theorem lt_length (h : l.Serves callers) (hi : i ∈ l.queue) : i < callers.length := by
  rcases (h.mem_iff i).mp hi with hi | hi <;> exact (List.getElem?_eq_some_iff.mp hi).1

theorem mem_queue_iff (h : l.Serves callers) (hi : callers[i]? = some a) :
    i ∈ l.queue ↔ a ≠ .outside := by
  rw [h.mem_iff i, hi]
  cases a <;> simp

theorem holding_unique (h : l.Serves callers) (hi : callers[i]? = some .holding)
    (hj : callers[j]? = some .holding) : i = j :=
  isHeldBy_unique (h.held i hi) (h.held j hj)

theorem standing_of_isHeldBy (h : l.Serves callers) (hi : l.isHeldBy i = true) :
    callers[i]? = some .waiting ∨ callers[i]? = some .holding :=
  (h.mem_iff i).mp (mem_of_isHeldBy hi)

theorem append_outside (h : l.Serves callers) : l.Serves (callers ++ [.outside]) := by
  refine ⟨h.nodup, ?_, ?_⟩
  · intro i
    simp [getElem?_concat_eq_some, h.mem_iff i]
  · intro i hi
    rcases getElem?_concat_eq_some.mp hi with ⟨-, hnew⟩ | hold
    · simp at hnew
    · exact h.held i hold

theorem append_waiting (h : l.Serves callers) :
    (l.join callers.length).Serves (callers ++ [.waiting]) := by
  have hn : callers.length ∉ l.queue := fun hm => Nat.lt_irrefl _ (h.lt_length hm)
  refine ⟨nodup_join h.nodup hn, ?_, ?_⟩
  · intro i
    simp [join, getElem?_concat_eq_some, h.mem_iff i, or_comm, or_left_comm]
  · intro i hi
    rcases getElem?_concat_eq_some.mp hi with ⟨-, hnew⟩ | hold
    · simp at hnew
    · exact isHeldBy_join (h.held i hold) _

theorem update (h : l.Serves callers) (hi : callers[i]? = some a) (hnodup : l'.queue.Nodup)
    (hmem : i ∈ l'.queue ↔ b ≠ .outside)
    (hothers : ∀ j, j ≠ i → (j ∈ l'.queue ↔ j ∈ l.queue))
    (hheld : ∀ j, j ≠ i → l.isHeldBy j = true → l'.isHeldBy j = true)
    (hb : b = .holding → l'.isHeldBy i = true) : l'.Serves (callers.set i b) := by
  refine ⟨hnodup, ?_, ?_⟩
  · intro j
    simp only [getElem?_set_eq_some hi]
    by_cases hji : j = i
    · subst hji
      rw [hmem]
      cases b <;> simp
    · simp [hji, hothers j hji, h.mem_iff j]
  · intro j hj
    rcases (getElem?_set_eq_some hi).mp hj with ⟨rfl, rfl⟩ | ⟨hji, hold⟩
    · exact hb rfl
    · exact hheld j hji (h.held j hold)

theorem join (h : l.Serves callers) (hi : callers[i]? = some .outside) :
    (l.join i).Serves (callers.set i .waiting) := by
  have hn : i ∉ l.queue := by simp [h.mem_queue_iff hi]
  refine h.update hi (nodup_join h.nodup hn) ?_ ?_ ?_ ?_
  · simp [Lock.join]
  · intro j hji
    simp [Lock.join, hji]
  · intro j _ hj
    exact isHeldBy_join hj i
  · simp

theorem leave (h : l.Serves callers) (hi : callers[i]? = some a) :
    (l.leave i).Serves (callers.set i .outside) := by
  refine h.update hi (h.nodup.erase i) ?_ ?_ ?_ ?_
  · simp [Lock.leave, h.nodup.mem_erase_iff]
  · intro j hji
    simp [Lock.leave, h.nodup.mem_erase_iff, hji]
  · intro j hji hj
    exact isHeldBy_moved (a := .waiting) (b := .outside) hj hji
  · simp

theorem keep (h : l.Serves callers) (hi : callers[i]? = some a) (ha : a ≠ .outside)
    (hb : b ≠ .outside) (hheld : b = .holding → l.isHeldBy i = true) :
    l.Serves (callers.set i b) := by
  have hm : i ∈ l.queue := (h.mem_queue_iff hi).mpr ha
  exact h.update hi h.nodup (by simp [hm, hb]) (fun _ _ => .rfl) (fun _ _ hj => hj) hheld

theorem stay (h : l.Serves callers) (hi : callers[i]? = some a) : l.Serves (callers.set i a) := by
  obtain ⟨hlt, rfl⟩ := List.getElem?_eq_some_iff.mp hi
  rwa [List.set_getElem_self hlt]

theorem moved (h : l.Serves callers) (hi : callers[i]? = some a)
    (hb : b = .holding → l.isHeldBy i = true) : (l.moved i a b).Serves (callers.set i b) := by
  cases a with
  | outside =>
    cases b with
    | outside => exact h.stay hi
    | waiting => exact h.join hi
    | holding => exact absurd rfl ((h.mem_queue_iff hi).mp (mem_of_isHeldBy (hb rfl)))
  | waiting | holding =>
    cases b with
    | outside => exact h.leave hi
    | waiting | holding => exact h.keep hi (by simp) (by simp) hb

theorem leave_of_outside (h : l.Serves callers) (hi : callers[i]? = some .outside) :
    l.leave i = l := by
  have hn : i ∉ l.queue := by simp [h.mem_queue_iff hi]
  simp [Lock.leave, List.erase_of_not_mem hn]

variable {α : Type} {f : α → Standing} {xs : List α} {x : α}

theorem map_set (h : l.Serves (xs.map f)) (hi : xs[i]? = some x) (y : α)
    (hb : f y = .holding → l.isHeldBy i = true) :
    (l.moved i (f x) (f y)).Serves ((xs.set i y).map f) := by
  rw [List.map_set]
  exact h.moved (by simp [hi]) hb

theorem map_set_same (h : l.Serves (xs.map f)) (hi : xs[i]? = some x) {y : α} (hy : f y = f x) :
    l.Serves ((xs.set i y).map f) := by
  rw [map_set_eq f hi hy]
  exact h

theorem map_append_outside (h : l.Serves (xs.map f)) (hx : f x = .outside) :
    l.Serves ((xs ++ [x]).map f) := by
  simpa [hx] using h.append_outside

theorem map_append_waiting (h : l.Serves (xs.map f)) (hx : f x = .waiting) :
    (l.join xs.length).Serves ((xs ++ [x]).map f) := by
  simpa [hx] using h.append_waiting

theorem eq_of_holding (h : l.Serves (xs.map f)) {y : α} (hi : xs[i]? = some x)
    (hj : xs[j]? = some y) (hx : f x = .holding) (hy : f y = .holding) : i = j :=
  h.holding_unique (by simp [hi, hx]) (by simp [hj, hy])

end Serves

end Lock

end Fanout
