/-!
A fair lock. Callers queue up, and the first one in the queue holds the lock, so that a lock that
is given up passes at once to the caller that has waited longest.
-/

namespace Fanout

structure Lock where
  queue : List Nat := []
  deriving DecidableEq, Repr

namespace Lock

def join (l : Lock) (caller : Nat) : Lock :=
  ⟨l.queue ++ [caller]⟩

def leave (l : Lock) (caller : Nat) : Lock :=
  ⟨l.queue.erase caller⟩

def isHeldBy (l : Lock) (caller : Nat) : Bool :=
  l.queue.head? == some caller

def isFree (l : Lock) : Bool :=
  l.queue.isEmpty

theorem isHeldBy_iff (l : Lock) (caller : Nat) :
    l.isHeldBy caller = true ↔ ∃ waiting, l.queue = caller :: waiting := by
  cases h : l.queue with
  | nil => simp [isHeldBy, h]
  | cons x xs => simp [isHeldBy, h]

theorem isHeldBy_unique {l : Lock} {i j : Nat} (hi : l.isHeldBy i = true)
    (hj : l.isHeldBy j = true) : i = j := by
  obtain ⟨xs, hx⟩ := (isHeldBy_iff l i).mp hi
  obtain ⟨ys, hy⟩ := (isHeldBy_iff l j).mp hj
  rw [hx] at hy
  exact (List.cons.inj hy).1

theorem isHeldBy_join {l : Lock} {i : Nat} (h : l.isHeldBy i = true) (caller : Nat) :
    (l.join caller).isHeldBy i = true := by
  obtain ⟨xs, hx⟩ := (isHeldBy_iff l i).mp h
  simp [isHeldBy, join, hx]

theorem queue_leave_holder {l : Lock} {i : Nat} (h : l.isHeldBy i = true) :
    (l.leave i).queue = l.queue.tail := by
  obtain ⟨xs, hx⟩ := (isHeldBy_iff l i).mp h
  simp [leave, hx]

end Lock

end Fanout
