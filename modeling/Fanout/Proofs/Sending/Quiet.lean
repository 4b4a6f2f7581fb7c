import Fanout.Proofs.Client.Connections
import Fanout.Proofs.Connection.Telling
import Fanout.Proofs.Server.Connections
import Mathlib.Data.List.Forall2

namespace Fanout

namespace Connection

def Action.isSending : Action → Bool
  | .send _ | .obtainWriter _ | .write _ _ | .failWrite _ _ | .writeExpired _ => true
  | _ => false

def SendsOnly (c c' : Connection) : Prop :=
  c' = { c with
    calls := c'.calls, writing := c'.writing, writers := c'.writers, wire := c'.wire }

variable {σ : Type} {tell : Sink σ} {c c' x : Connection} {a : Action} {s s' : σ} {i : Nat}
  {xs : List Connection}

theorem sendsOnly_turn (ht : Turn c a c') (ha : a.isSending = true) : SendsOnly c c' := by
  cases ht with
  | send | turnAway | sendNothing | startWriting | write | finishWriting | failWrite
  | writeExpired => rfl
  | _ => simp [Action.isSending] at ha

theorem sending_step (ha : a.isSending = true) (hs : c.step tell a s = some (c', s')) :
    s' = s ∧ SendsOnly c c' := by
  have honly := sendsOnly_turn (turn_of_step hs) ha
  have hsame : c'.signals = c.signals := by rw [honly]
  exact ⟨quiet_of_signals hs hsame, honly⟩

theorem sendsOnly_refl (xs : List Connection) : List.Forall₂ SendsOnly xs xs :=
  List.forall₂_same.mpr fun _ _ => rfl

theorem sendsOnly_set (hx : xs[i]? = some c) (h : SendsOnly c c') :
    List.Forall₂ SendsOnly xs (xs.set i c') := by
  refine List.forall₂_iff_get.mpr ⟨by simp, ?_⟩
  intro j hj hj'
  by_cases hji : j = i
  · subst hji
    obtain rfl : xs.get ⟨j, hj⟩ = c := (List.getElem?_eq_some_iff.mp hx).2
    simpa using h
  · simp [List.getElem_set_ne (Ne.symm hji), SendsOnly]

end Connection

open Connection (SendsOnly sendsOnly_refl sendsOnly_set sendsOnly_turn)

def Job.isSending : Job → Bool
  | .broadcast _ _ | .sendTo _ _ _ | .send _ _ => true
  | _ => false

namespace Server

def Request.isSending : Request → Bool
  | .broadcast _ | .sendTo _ _ | .send _ _ => true
  | _ => false

def Action.isSending (s : Server) : Action → Bool
  | .begin r => r.isSending
  | .on _ a => a.isSending
  | .resume t => s.tasks[t]?.any Job.isSending
  | _ => false

variable {behaviour : Behaviour} {s s' s₁ : Server} {t : Nat} {job job' : Job} {a : Action}

theorem Work.sends (hw : Work s t job s₁ job') (hj : job.isSending = true) :
    s₁.feed = s.feed ∧ List.Forall₂ SendsOnly s.connections s₁.connections := by
  cases hw with
  | broadcastNext _ _ hx | findHost _ _ hx =>
    exact ⟨rfl, sendsOnly_set hx (sendsOnly_turn (.send _) rfl)⟩
  | broadcastEnd | broadcastFailed | missHost | sentTo | sent | crash =>
    exact ⟨rfl, sendsOnly_refl _⟩
  | sweepNext sweeper | sweepEnd sweeper => cases sweeper <;> exact absurd hj nofun
  | _ => exact absurd hj nofun

theorem Begins.sends {r : Request} (hb : Begins s r s₁ job) (hr : r.isSending = true) :
    s₁.feed = s.feed ∧ List.Forall₂ SendsOnly s.connections s₁.connections := by
  cases hb with
  | send _ _ hx => exact ⟨rfl, sendsOnly_set hx (sendsOnly_turn (.send _) rfl)⟩
  | broadcast | sendTo => exact ⟨rfl, sendsOnly_refl _⟩
  | _ => exact absurd hr nofun

theorem sending_step (h : s.Sound) (ha : a.isSending s = true)
    (hs : s.step behaviour a = some s') :
    s'.feed = s.feed ∧ List.Forall₂ SendsOnly s.connections s'.connections := by
  cases a with
  | begin r =>
    simp only [step] at hs
    split at hs
    · exact absurd hs nofun
    · split at hs
      · exact absurd hs nofun
      · obtain ⟨s₁, job, hb, rfl⟩ := begins_of_begin hs
        exact hb.sends ha
  | resume t =>
    simp only [step] at hs
    split at hs
    · exact absurd hs nofun
    · obtain ⟨job, s₁, job', ht, hw, rfl⟩ := works_resume h hs
      exact hw.sends (by simpa [Action.isSending, ht] using ha)
  | on c act =>
    obtain ⟨x, x', feed, hx, hstep, rfl⟩ := on_of_step hs
    obtain ⟨rfl, honly⟩ := Connection.sending_step ha hstep
    exact ⟨rfl, sendsOnly_set hx honly⟩
  | _ => exact absurd ha nofun

end Server

def ClientJob.isSending : ClientJob → Bool
  | .send _ _ => true
  | _ => false

namespace Client

def Request.isSending : Request → Bool
  | .send _ => true
  | _ => false

def Action.isSending (s : Client) : Action → Bool
  | .begin r => r.isSending
  | .on _ a => a.isSending
  | .resume t => s.tasks[t]?.any ClientJob.isSending
  | _ => false

variable {behaviour : Behaviour} {s s' s₁ : Client} {job job' : ClientJob} {a : Action}

theorem Work.sends (hw : Work s job s₁ job') (hj : job.isSending = true) : s₁ = s := by
  cases hw with
  | sent | crash => rfl
  | _ => exact absurd hj nofun

theorem Begins.sends {r : Request} (hb : Begins s r s₁ job) (hr : r.isSending = true) :
    s₁.feed = s.feed ∧ List.Forall₂ SendsOnly s.connections s₁.connections := by
  cases hb with
  | send _ hx => exact ⟨rfl, sendsOnly_set hx (sendsOnly_turn (.send _) rfl)⟩
  | sendNowhere => exact ⟨rfl, sendsOnly_refl _⟩
  | _ => exact absurd hr nofun

theorem sending_step (ha : a.isSending s = true) (hs : s.step behaviour a = some s') :
    s'.feed = s.feed ∧ List.Forall₂ SendsOnly s.connections s'.connections := by
  have ht := turn_of_step hs
  cases ht with
  | begin heq hb =>
    subst heq
    exact hb.sends ha
  | @work t _ htask hw =>
    obtain ⟨job, s₁, job', ht, hw, rfl⟩ := hw
    cases a with
    | resume u =>
      obtain rfl : u = t := Option.some.inj htask
      obtain rfl := hw.sends (by simpa [Action.isSending, ht] using ha)
      exact ⟨rfl, sendsOnly_refl _⟩
    | begin | on => exact absurd htask nofun
    | _ => exact absurd ha nofun
  | on heq hx _ hstep =>
    subst heq
    obtain ⟨rfl, honly⟩ := Connection.sending_step ha hstep
    exact ⟨rfl, sendsOnly_set hx honly⟩
  | subscribe _ heq | pass _ heq =>
    subst heq
    exact absurd ha nofun

end Client

end Fanout
