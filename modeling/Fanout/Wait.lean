/-!
Bounded waits. An operation ends after some time, with a value or with an error, or it never ends;
a bound of zero seconds waits for as long as it takes.
-/

namespace Fanout

inductive WaitOutcome (α ε : Type) where
  | ready (value : α)
  | timeout
  | failure (e : ε)
  deriving DecidableEq, Repr

def WaitOutcome.isReady {α ε : Type} : WaitOutcome α ε → Bool
  | .ready _ => true
  | _ => false

abbrev Ending (α ε : Type) :=
  Option (Nat × Except ε α)

def WaitOutcome.ofResult {α ε : Type} : Except ε α → WaitOutcome α ε
  | .ok value => .ready value
  | .error e => .failure e

/--
The outcome of a wait and the time that it took; none if the wait has no end. An operation that
ends exactly at the bound has ended in time.
-/
def bounded {α ε : Type} (secs : Nat) (op : Ending α ε) : Option (Nat × WaitOutcome α ε) :=
  let bound := secs * 1000
  match op with
  | some (t, r) =>
      if 0 < secs ∧ bound < t then some (bound, .timeout) else some (t, .ofResult r)
  | none => if 0 < secs then some (bound, .timeout) else none

end Fanout
