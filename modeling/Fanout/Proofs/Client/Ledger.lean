import Fanout.Proofs.Client.Run
import Fanout.Proofs.Client.Soundness
import Fanout.Proofs.Observer.Hearing

namespace Fanout.Client

open Ledger (Quiet badge badge_call quiet_same quiet_concat quiet_set)

def notice (e : ClientRaised) : Notice where
  connection := e.connection
  host := e.host
  signal := e.signal

def ledger (s : Client) : Ledger where
  connections := s.connections
  log := s.feed.raised.map notice
  bus := s.feed.bus

variable {behaviour : Behaviour} {s s' s₁ : Client} {t c : Nat} {job job' : ClientJob}
  {x x' : Connection}

theorem carries_tell (behaviour : Behaviour) (s : Client) (c : Nat) :
    Ledger.Carries behaviour .client c (fun f : ClientFeed => f.raised.map notice) ClientFeed.bus
      (s.tell behaviour c) where
  notes x signal f := by simp [tell, notice]
  passes _ _ _ := rfl
  answers _ _ _ := rfl

theorem listen_badge (x : Connection) : badge x.listen.1 = badge x :=
  badge_call (Connection.turn_listen x) rfl

theorem quiet_added {stream : Stream} {settings : Settings} {time : Timestamp}
    (opened : Connection.ofStream stream settings time = .ok x) (hb : badge x' = badge x) :
    Quiet s.connections (s.added x').connections := by
  refine quiet_concat _ ((congrArg Prod.snd hb).trans ?_)
  rw [Connection.ofStream_fresh opened]
  rfl

theorem Work.quiet (hw : Work s job s₁ job') : Quiet s.connections s₁.connections := by
  cases hw with
  | lose opened => exact quiet_added opened (badge_call .close rfl)
  | first opened => exact quiet_added opened (listen_badge _)
  | supersede opened _ _ hy =>
    exact (quiet_added opened rfl).trans (quiet_set hy (badge_call .close rfl))
  | replaced _ hx => exact quiet_set hx (listen_badge _)
  | _ => exact quiet_same _

theorem Begins.quiet {r : Request} (hb : Begins s r s₁ job) :
    Quiet s.connections s₁.connections := by
  cases hb with
  | send _ hx => exact quiet_set hx (badge_call (.send _) rfl)
  | close _ hx => exact quiet_set hx (badge_call .close rfl)
  | _ => exact quiet_same _

theorem Begins.feed {r : Request} (hb : Begins s r s₁ job) : s₁.feed = s.feed := by
  cases hb <;> rfl

theorem ledger_step_of_quiet (hq : Quiet s.connections s'.connections) (hf : s'.feed = s.feed) :
    Ledger.Step behaviour .client s.ledger s'.ledger := by
  have heq : s'.ledger = { s.ledger with connections := s'.connections } := by
    simp only [ledger, hf]
  rw [heq]
  exact .quiet hq

theorem Turn.ledger_step {a : Action} (ht : Turn behaviour s a s') :
    Ledger.Step behaviour .client s.ledger s'.ledger := by
  cases ht with
  | subscribe o => exact .subscribe o
  | begin _ hb => exact ledger_step_of_quiet hb.quiet hb.feed
  | work _ hw =>
    obtain ⟨job, s₁, job', -, hw, rfl⟩ := hw
    exact ledger_step_of_quiet hw.quiet hw.frame.2
  | @on c act x x' feed _ hx _ hs =>
    obtain ⟨es, hlog, hr⟩ := (carries_tell behaviour s c).report hs
    have heq : ledger { s.setConnection c x' with feed } =
        { connections := s.connections.set c x', log := s.ledger.log ++ es, bus := feed.bus } := by
      rw [ledger, hlog]
      rfl
    rw [heq]
    exact .report hx hr
  | pass => exact ledger_step_of_quiet (quiet_same _) rfl

theorem keeps_ledger (behaviour : Behaviour) :
    Ledger.Keeps behaviour .client ledger (Reachable behaviour) (Next behaviour) where
  reach hs hn := by
    obtain ⟨a, ha⟩ := hn
    exact .step a hs ha
  step hs hn := by
    obtain ⟨a, ha⟩ := hn
    exact (turn_of_step ha).ledger_step
  logged hs := by
    induction hs with
    | new config => exact ⟨by simp [ledger], by simp [ledger], rfl, fun _ _ => rfl⟩
    | step a _ hs ih => exact ih.step (turn_of_step hs).ledger_step
  sound hs := fun hx => (sound_of_reachable hs).connections hx

def Joined (behaviour : Behaviour) : Nat → Observer → Client → Client → Prop :=
  Ledger.Joined ledger (Reachable behaviour) (Next behaviour)

end Fanout.Client
