import Fanout.Observer.Basic

/-!
The bus fans events out to its observers in the order of registration. A dispatch calls the
observers that were registered when it began; a callback may register observers, begin further
dispatches and raise, and raising leaves every dispatch that encloses it. `depth` bounds how deep
dispatches nest, as the stack does; a run that would nest deeper has no result.
-/

namespace Fanout

inductive Act where
  | subscribe (o : Observer)
  | dispatch (e : Event)
  | measure
  | raise
  deriving DecidableEq, Repr

/-- What each callback does on its first call, its second call and so on, counted from zero. -/
abbrev Behaviour :=
  Handler → Nat → List Act

inductive Outcome where
  | returned
  | raised
  deriving DecidableEq, Repr

inductive Record where
  | call (dispatch observer : Nat) (handler : Handler) (event : Event)
  | size (n : Nat)
  deriving DecidableEq, Repr

structure Bus where
  observers : List Observer := []
  log : List Record := []
  begun : Nat := 0
  deriving DecidableEq, Repr

namespace Bus

def subscribe (b : Bus) (o : Observer) : Bus :=
  { b with observers := b.observers ++ [o] }

def note (b : Bus) (r : Record) : Bus :=
  { b with log := b.log ++ [r] }

def handlers (b : Bus) (e : Event) : List (Nat × Handler) :=
  b.observers.zipIdx.filterMap fun (o, i) => (o.handler? e).map fun h => (i, h)

def isCallOf (h : Handler) : Record → Bool
  | .call _ _ h' _ => h' == h
  | .size _ => false

def calls (b : Bus) (h : Handler) : Nat :=
  b.log.countP (isCallOf h)

def perform (nested : Event → Bus → Option (Bus × Outcome)) : List Act → Bus → Option (Bus × Outcome)
  | [], b => some (b, .returned)
  | .subscribe o :: acts, b => perform nested acts (b.subscribe o)
  | .measure :: acts, b => perform nested acts (b.note (.size b.observers.length))
  | .raise :: _, b => some (b, .raised)
  | .dispatch e :: acts, b =>
      match nested e b with
      | some (b, .returned) => perform nested acts b
      | stopped => stopped

def callAll (behaviour : Behaviour) (nested : Event → Bus → Option (Bus × Outcome)) (number : Nat)
    (e : Event) : List (Nat × Handler) → Bus → Option (Bus × Outcome)
  | [], b => some (b, .returned)
  | (i, h) :: hs, b =>
      match perform nested (behaviour h (b.calls h)) (b.note (.call number i h e)) with
      | some (b, .returned) => callAll behaviour nested number e hs b
      | stopped => stopped

def dispatchWithin (behaviour : Behaviour) : Nat → Event → Bus → Option (Bus × Outcome)
  | 0, _, _ => none
  | depth + 1, e, b =>
      callAll behaviour (dispatchWithin behaviour depth) b.begun e (b.handlers e)
        { b with begun := b.begun + 1 }

def dispatch (b : Bus) (behaviour : Behaviour) (depth : Nat) (e : Event) : Option (Bus × Outcome) :=
  dispatchWithin behaviour depth e b

def isOutside : Act → Bool
  | .dispatch _ => false
  | _ => true

/--
Dispatches an event on a bus that its owner keeps to itself: the callbacks can register observers
and raise, but cannot dispatch.
-/
def deliver (b : Bus) (behaviour : Behaviour) (e : Event) : Bus × Outcome :=
  (b.dispatch (fun h n => (behaviour h n).filter isOutside) 1 e).getD (b, .returned)

end Bus

end Fanout
