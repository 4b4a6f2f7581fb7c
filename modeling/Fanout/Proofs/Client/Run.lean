import Fanout.Client.Step
import Mathlib.Logic.Relation

namespace Fanout.Client

variable {behaviour : Behaviour} {s s' : Client}

def Next (behaviour : Behaviour) (s s' : Client) : Prop :=
  ∃ a, s.step behaviour a = some s'

def Run (behaviour : Behaviour) : Client → Client → Prop :=
  Relation.ReflTransGen (Next behaviour)

theorem Run.reachable (h : Run behaviour s s') (hs : Reachable behaviour s) :
    Reachable behaviour s' := by
  induction h with
  | refl => exact hs
  | tail _ hn ih =>
    obtain ⟨a, ha⟩ := hn
    exact .step a ih ha

theorem run_of_reachable (h : Reachable behaviour s) : ∃ config, Run behaviour { config } s := by
  induction h with
  | new config => exact ⟨config, .refl⟩
  | step a _ hs ih =>
    obtain ⟨config, hrun⟩ := ih
    exact ⟨config, hrun.tail ⟨a, hs⟩⟩

def steps? (behaviour : Behaviour) : List Action → Client → Option Client
  | [], s => some s
  | a :: as, s => (s.step behaviour a).bind (steps? behaviour as)

theorem run_of_steps (as : List Action) (h : steps? behaviour as s = some s') :
    Run behaviour s s' := by
  induction as generalizing s with
  | nil => exact Option.some.inj h ▸ .refl
  | cons a as ih =>
    obtain ⟨s₁, h₁, h⟩ := Option.bind_eq_some_iff.mp h
    exact (ih h).head ⟨a, h₁⟩

theorem reachable_of_steps (config : ClientConfig) (as : List Action)
    (h : steps? behaviour as { config } = some s') : Reachable behaviour s' :=
  (run_of_steps as h).reachable (.new config)

end Fanout.Client
