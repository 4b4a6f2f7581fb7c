import Fanout.Proofs.Connection.Soundness
import Mathlib.Logic.Relation

namespace Fanout.Connection

variable {σ : Type}

def Next (tell : Sink σ) (p q : Connection × σ) : Prop :=
  ∃ a, p.1.step tell a p.2 = some q

def Run (tell : Sink σ) : Connection × σ → Connection × σ → Prop :=
  Relation.ReflTransGen (Next tell)

variable {tell : Sink σ} {p q : Connection × σ}

theorem Next.turn (h : Next tell p q) : ∃ a, Turn p.1 a q.1 := by
  obtain ⟨a, ha⟩ := h
  exact ⟨a, turn_of_step ha⟩

namespace Run

theorem sound (h : Run tell p q) (hp : p.1.Sound) : q.1.Sound := by
  induction h with
  | refl => exact hp
  | tail _ hn ih =>
    obtain ⟨a, ht⟩ := hn.turn
    exact ih.turn ht

end Run

def steps? (tell : Sink σ) : List Action → Connection × σ → Option (Connection × σ)
  | [], p => some p
  | a :: as, p => (p.1.step tell a p.2).bind (steps? tell as)

theorem run_of_steps (as : List Action) (h : steps? tell as p = some q) : Run tell p q := by
  induction as generalizing p with
  | nil => exact Option.some.inj h ▸ .refl
  | cons a as ih =>
    obtain ⟨p', hp, hq⟩ := Option.bind_eq_some_iff.mp h
    exact (ih hq).head ⟨a, hp⟩

def greeted (bytes : List UInt8) : Connection where
  stream := { peer := { ip := .loopback, port := 9 }, arrived := bytes }
  settings := {}
  connectedAt := ⟨0, 0⟩

theorem ofStream_greeted (bytes : List UInt8) :
    ofStream (greeted bytes).stream {} ⟨0, 0⟩ = .ok (greeted bytes) := rfl

end Fanout.Connection
