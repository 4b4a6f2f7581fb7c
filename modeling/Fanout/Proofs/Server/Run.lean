import Fanout.Proofs.Server.Invariance
import Mathlib.Logic.Relation

namespace Fanout.Server

variable {behaviour : Behaviour} {s s' s'' : Server}

def Next (behaviour : Behaviour) (s s' : Server) : Prop :=
  ∃ a, s.step behaviour a = some s'

def Run (behaviour : Behaviour) : Server → Server → Prop :=
  Relation.ReflTransGen (Next behaviour)

theorem Run.reachable (h : Run behaviour s s') (hs : Reachable behaviour s) :
    Reachable behaviour s' := by
  induction h with
  | refl => exact hs
  | tail _ hn ih =>
    obtain ⟨a, ha⟩ := hn
    exact .step a ih ha

theorem Run.sound (h : Run behaviour s s') (hs : s.Sound) : s'.Sound := by
  induction h with
  | refl => exact hs
  | tail _ hn ih =>
    obtain ⟨a, ha⟩ := hn
    exact ih.turn (ih.turn_of_step ha)

theorem run_of_reachable (h : Reachable behaviour s) : ∃ config, Run behaviour { config } s := by
  induction h with
  | new config => exact ⟨config, .refl⟩
  | step a _ hs ih =>
    obtain ⟨config, hrun⟩ := ih
    exact ⟨config, hrun.tail ⟨a, hs⟩⟩

/-- One step that does not start the server again. -/
def Lulls (behaviour : Behaviour) (s s' : Server) : Prop :=
  ∃ a, ¬ a.Starts s ∧ s.step behaviour a = some s'

def Lull (behaviour : Behaviour) : Server → Server → Prop :=
  Relation.ReflTransGen (Lulls behaviour)

theorem Lull.run (h : Lull behaviour s s') : Run behaviour s s' :=
  h.lift id fun _ _ ⟨a, _, ha⟩ => ⟨a, ha⟩

theorem Lull.reachable (h : Lull behaviour s s') (hs : Reachable behaviour s) :
    Reachable behaviour s' :=
  h.run.reachable hs

def steps? (behaviour : Behaviour) : List Action → Server → Option Server
  | [], s => some s
  | a :: as, s => (s.step behaviour a).bind (steps? behaviour as)

theorem run_of_steps (as : List Action) (h : steps? behaviour as s = some s') :
    Run behaviour s s' := by
  induction as generalizing s with
  | nil => exact Option.some.inj h ▸ .refl
  | cons a as ih =>
    obtain ⟨s₁, h₁, h⟩ := Option.bind_eq_some_iff.mp h
    exact (ih h).head ⟨a, h₁⟩

theorem reachable_of_steps (as : List Action) (hs : Reachable behaviour s)
    (h : steps? behaviour as s = some s') : Reachable behaviour s' :=
  (run_of_steps as h).reachable hs

def Action.isStart : Action → Bool
  | .start .. => true
  | _ => false

theorem lull_of_steps (as : List Action) (ha : as.all (fun a => !a.isStart) = true)
    (h : steps? behaviour as s = some s') : Lull behaviour s s' := by
  induction as generalizing s with
  | nil => exact Option.some.inj h ▸ .refl
  | cons a as ih =>
    obtain ⟨s₁, h₁, h⟩ := Option.bind_eq_some_iff.mp h
    simp only [List.all_cons, Bool.and_eq_true, Bool.not_eq_true'] at ha
    refine (ih ha.2 h).head ⟨a, ?_, h₁⟩
    cases a with
    | start => simp [Action.isStart] at ha
    | _ => exact id

def quietObservers : Behaviour := fun _ _ => []

def visitor : Stream where
  peer := { ip := .loopback, port := 9 }

/-- A visitor of the same host whose connection has a port of its own. -/
def visitorOn (port : UInt16) : Stream where
  peer := { visitor.peer with port }

def address : SocketAddress where
  ip := .loopback
  port := 65123

def opening : List Action :=
  [.start 65123 false (.ok address), .begin (.accept 0), .connect 0 visitor, .acceptPeer 0]

end Fanout.Server
