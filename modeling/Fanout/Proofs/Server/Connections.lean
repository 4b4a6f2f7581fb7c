import Fanout.Proofs.Connection.Path
import Fanout.Proofs.Server.Run

namespace Fanout.Server

open Connection (Flows Path)

variable {behaviour : Behaviour} {s s' s₁ : Server} {t c : Nat} {job job' : Job} {a : Action}
  {x : Connection}

theorem Work.flows (hw : Work s t job s₁ job') : Flows s.connections s₁.connections := by
  cases hw with
  | acceptPeer _ opened => exact .concat _ (.opened opened)
  | enlist _ _ hx => exact .set hx (.listen _)
  | refuse _ _ hx | closeNext _ _ hx => exact .set hx (.close _)
  | broadcastNext _ _ hx | findHost _ _ hx => exact .set hx (.send _ _)
  | sweepNext _ _ hs _ hx => cases hs <;> exact .set hx (.close _)
  | sweepEnd _ _ hs => cases hs <;> exact .refl _
  | @closeEnd listener => cases listener <;> exact .refl _
  | _ => exact .refl _

theorem Begins.flows {r : Request} (hb : Begins s r s₁ job) :
    Flows s.connections s₁.connections := by
  have hun : s.unlisten.connections = s.connections := (unlisten_frame s).2.2.1
  cases hb with
  | send _ _ hx => exact .set hx (.send _ _)
  | close _ hx => exact .set hx (.close _)
  | listen _ hx => exact .set hx (.listen _)
  | @stopReaper r =>
    have hconns := (cancelReaper_frame s.unlisten r).2.2.1.trans hun
    exact hconns ▸ .refl s.connections
  | closeAll => exact hun ▸ .refl s.connections
  | _ => exact .refl _

theorem Turn.flows (ht : Turn behaviour s a s') : Flows s.connections s'.connections := by
  cases ht with
  | begin _ hb => exact hb.flows
  | work _ hw =>
    obtain ⟨job, s₁, job', -, hw, rfl⟩ := hw
    exact hw.flows
  | drop => exact (drop_frame s).2.2.1 ▸ .refl s.connections
  | @replaceReaper previous address =>
    exact (cancelReaper_frame (s.opened address).spawnReaper previous).2.2.1 ▸ .refl s.connections
  | on _ hx _ hs => exact .set hx (.step hs)
  | _ => exact .refl _

theorem Run.flows (h : Run behaviour s s') (hs : s.Sound) :
    Flows s.connections s'.connections := by
  induction h with
  | refl => exact .refl _
  | tail hrun hn ih =>
    obtain ⟨a, ha⟩ := hn
    exact ih.trans ((Run.sound hrun hs).turn_of_step ha).flows

theorem connection_reachable (h : Reachable behaviour s) (hx : s.connections[c]? = some x) :
    x.Reachable := by
  obtain ⟨config, hrun⟩ := run_of_reachable h
  exact (hrun.flows (sound_new config)).reachable hx

end Fanout.Server
