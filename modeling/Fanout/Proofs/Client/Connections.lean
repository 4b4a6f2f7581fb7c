import Fanout.Proofs.Client.Run
import Fanout.Proofs.Client.Turn
import Fanout.Proofs.Connection.Path

namespace Fanout.Client

open Connection (Flows Path)

variable {behaviour : Behaviour} {s s' s₁ : Client} {c : Nat} {job job' : ClientJob} {a : Action}
  {x : Connection}

theorem Work.flows (hw : Work s job s₁ job') : Flows s.connections s₁.connections := by
  cases hw with
  | lose opened => exact .concat _ ((Connection.Reachable.opened opened).path (.close _))
  | first opened => exact .concat _ ((Connection.Reachable.opened opened).path (.listen _))
  | supersede opened _ _ hy =>
    exact (Flows.concat s.connections (.opened opened)).trans (.set hy (.close _))
  | replaced _ hx => exact .set hx (.listen _)
  | _ => exact .refl _

theorem Begins.flows {r : Request} (hb : Begins s r s₁ job) :
    Flows s.connections s₁.connections := by
  cases hb with
  | send _ hx => exact .set hx (.send _ _)
  | close _ hx => exact .set hx (.close _)
  | _ => exact .refl _

theorem Turn.flows (ht : Turn behaviour s a s') : Flows s.connections s'.connections := by
  cases ht with
  | begin _ hb => exact hb.flows
  | work _ hw =>
    obtain ⟨job, s₁, job', -, hw, rfl⟩ := hw
    exact hw.flows
  | on _ hx _ hs => exact .set hx (.step hs)
  | subscribe | pass => exact .refl _

theorem Run.flows (h : Run behaviour s s') : Flows s.connections s'.connections := by
  induction h with
  | refl => exact .refl _
  | tail _ hn ih =>
    obtain ⟨a, ha⟩ := hn
    exact ih.trans (turn_of_step ha).flows

theorem connection_reachable (h : Reachable behaviour s) (hx : s.connections[c]? = some x) :
    x.Reachable := by
  obtain ⟨config, hrun⟩ := run_of_reachable h
  exact hrun.flows.reachable hx

end Fanout.Client
