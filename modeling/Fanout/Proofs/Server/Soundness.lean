import Fanout.Proofs.Connection.Refusal
import Fanout.Server.Step

namespace Fanout

open Lock (Standing)

namespace Job

def standing : Job → Standing
  | .register _ _ => .waiting
  | .broadcast _ none => .waiting
  | .broadcast _ (some _) => .holding
  | .sendTo _ _ none => .waiting
  | .sendTo _ _ (some _) => .holding
  | .reap _ none => .waiting
  | .reap _ (some _) => .holding
  | .reaper _ _ (some (_, none)) => .waiting
  | .reaper _ _ (some (_, some _)) => .holding
  | .closeAll _ _ none => .waiting
  | .closeAll _ _ (some _) => .holding
  | .count => .waiting
  | .list => .waiting
  | _ => .outside

/-- The connection that a task answers for: it has accepted it and perhaps given it out. -/
def own? : Job → Option Nat
  | .register _ c => some c
  | .refuse c _ _ => some c
  | .done (.accepted c) => some c
  | _ => none

def isReaper : Job → Bool
  | .reaper _ _ _ => true
  | _ => false

theorem own?_eq_some {job : Job} {c : Nat} : job.own? = some c ↔
    (∃ l, job = .register l c) ∨ (∃ call e, job = .refuse c call e) ∨
      job = .done (.accepted c) := by
  cases job with
  | done reply => cases reply <;> simp [own?]
  | _ => simp [own?]

theorem not_reaper_of_own {job : Job} {c : Nat} (h : job.own? = some c) : job.isReaper = false := by
  rcases own?_eq_some.mp h with ⟨l, rfl⟩ | ⟨call, e, rfl⟩ | rfl <;> rfl

end Job

namespace Server

def IsShut (s : Server) (c : Nat) : Prop :=
  ∃ x, s.connections[c]? = some x ∧ x.Shut

def Closes (s : Server) (place call : Nat) : Prop :=
  ∃ c x p, s.registry[place]? = some c ∧ s.connections[c]? = some x ∧
    x.calls[call]? = some (.close p)

def Fits (s : Server) : Job → Prop
  | .register _ c => ∃ x, s.connections[c]? = some x ∧ x.Unheard
  | .refuse c call e =>
      call = 0 ∧ e = .listenerClosed ∧ ∃ x, s.connections[c]? = some x ∧ x.Refused
  | .done (.accepted c) => ∃ x, s.connections[c]? = some x ∧ (c ∈ s.registry ∨ x.Shut)
  | .broadcast _ (some (place, _)) => ∃ c, s.registry[place]? = some c
  | .sendTo _ _ (some (c, _)) => c ∈ s.registry
  | .reap _ (some (place, call)) => s.Closes place call
  | .reaper _ _ (some (_, some (place, call))) => s.Closes place call
  | .closeAll _ _ (some (place, call)) => s.Closes place call ∧
      ∀ (earlier c : Nat), earlier < place → s.registry[earlier]? = some c → s.IsShut c
  | _ => True

structure Sound (s : Server) : Prop where
  lock : s.lock.Serves (s.tasks.map Job.standing)
  connections : ∀ {c : Nat} {x : Connection}, s.connections[c]? = some x → x.Sound
  fits : ∀ {t : Nat} {job : Job}, s.tasks[t]? = some job → s.Fits job
  owned : ∀ {t u c : Nat} {job job' : Job}, s.tasks[t]? = some job → s.tasks[u]? = some job' →
    job.own? = some c → job'.own? = some c → t = u
  housed : ∀ {c : Nat} {x : Connection}, s.connections[c]? = some x →
    x.phase = .disconnected ∨ ∃ (t : Nat) (job : Job), s.tasks[t]? = some job ∧ job.own? = some c
  given : ∀ {c : Nat}, c ∈ s.registry → s.isGiven c = true
  listening : ∀ {l : Nat}, s.isClosed l = false → s.listening = some l

theorem sound_new (config : ServerConfig) : Sound { config } where
  lock := Lock.serves_empty
  connections := by simp
  fits := by simp
  owned := by simp
  housed := by simp
  given := by simp
  listening := by simp [isClosed]

theorem fits_congr {s s' : Server} {job : Job} (hc : s'.connections = s.connections)
    (hr : s'.registry = s.registry) (hf : s.Fits job) : s'.Fits job := by
  unfold Fits Closes IsShut at *
  rw [hc, hr]
  exact hf

theorem isGiven_iff {s : Server} {c : Nat} :
    s.isGiven c = true ↔ ∃ t : Nat, s.tasks[t]? = some (.done (.accepted c)) := by
  simp [isGiven, List.mem_iff_getElem?]

namespace Sound

variable {s : Server} {c t : Nat} {x : Connection}

theorem given_fits (h : s.Sound) (hc : s.isGiven c = true) :
    ∃ x, s.connections[c]? = some x ∧ (c ∈ s.registry ∨ x.Shut) := by
  obtain ⟨t, ht⟩ := isGiven_iff.mp hc
  exact h.fits ht

theorem own_known (h : s.Sound) {job : Job} (ht : s.tasks[t]? = some job)
    (ho : job.own? = some c) : ∃ x, s.connections[c]? = some x := by
  have hf := h.fits ht
  rcases Job.own?_eq_some.mp ho with ⟨l, rfl⟩ | ⟨call, e, rfl⟩ | rfl
  · obtain ⟨x, hx, -⟩ := hf
    exact ⟨x, hx⟩
  · obtain ⟨-, -, x, hx, -⟩ := hf
    exact ⟨x, hx⟩
  · obtain ⟨x, hx, -⟩ := hf
    exact ⟨x, hx⟩

theorem not_given (h : s.Sound) {job : Job} (ht : s.tasks[t]? = some job) (ho : job.own? = some c)
    (hj : job ≠ .done (.accepted c)) : s.isGiven c = false := by
  rw [← Bool.not_eq_true, isGiven_iff]
  intro ⟨u, hu⟩
  obtain rfl := h.owned ht hu ho rfl
  exact hj (Option.some.inj (ht.symm.trans hu))

end Sound

end Server

end Fanout
