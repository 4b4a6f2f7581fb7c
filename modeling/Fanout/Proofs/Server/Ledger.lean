import Fanout.Proofs.Observer.Hearing
import Fanout.Proofs.Server.Run

namespace Fanout.Server

open Ledger (Quiet badge_call quiet_same quiet_concat quiet_set)

def notice (e : Raised) : Notice where
  connection := e.connection
  host := e.host
  signal := e.signal

def ledger (s : Server) : Ledger where
  connections := s.connections
  log := s.feed.raised.map notice
  bus := s.feed.bus

variable {behaviour : Behaviour} {s s' s₁ : Server} {t c : Nat} {job job' : Job}
  {x x' : Connection}

theorem carries_tell (behaviour : Behaviour) (c : Nat) :
    Ledger.Carries behaviour .server c (fun f : ServerFeed => f.raised.map notice) ServerFeed.bus
      (ServerFeed.tell behaviour c) where
  notes x signal f := by
    cases signal <;> simp [ServerFeed.tell, ServerFeed.countOff, notice]
  passes x signal f := by
    cases signal <;> rfl
  answers x signal f := by
    cases signal <;> rfl

structure Hushed (s s' : Server) : Prop where
  connections : Quiet s.connections s'.connections
  raised : s'.feed.raised = s.feed.raised
  bus : s'.feed.bus = s.feed.bus

theorem hushed_same (hc : s'.connections = s.connections) (hf : s'.feed = s.feed) :
    Hushed s s' where
  connections := hc ▸ quiet_same _
  raised := by rw [hf]
  bus := by rw [hf]

theorem hushed_set {a : Connection.Action} (hx : s.connections[c]? = some x)
    (ht : Connection.Turn x a x') (ha : a.isCall = true)
    (hc : s'.connections = s.connections.set c x') (hraised : s'.feed.raised = s.feed.raised)
    (hbus : s'.feed.bus = s.feed.bus) : Hushed s s' where
  connections := hc ▸ quiet_set hx (badge_call ht ha)
  raised := hraised
  bus := hbus

theorem Hushed.step (h : Hushed s s') : Ledger.Step behaviour .server s.ledger s'.ledger := by
  have heq : s'.ledger = { s.ledger with connections := s'.connections } := by
    simp only [ledger, h.raised, h.bus]
  rw [heq]
  exact .quiet h.connections

theorem Work.hushed (hw : Work s t job s₁ job') : Hushed s s₁ := by
  cases hw with
  | acceptPeer _ opened =>
    exact ⟨quiet_concat _ (by rw [Connection.ofStream_fresh opened]), rfl, rfl⟩
  | enlist _ _ hx => exact hushed_set hx (Connection.turn_listen _) rfl rfl rfl rfl
  | refuse _ _ hx => exact hushed_set hx .close rfl rfl rfl rfl
  | broadcastNext _ _ hx | findHost _ _ hx => exact hushed_set hx (.send _) rfl rfl rfl rfl
  | sweepNext _ _ hs _ hx => cases hs <;> exact hushed_set hx .close rfl rfl rfl rfl
  | sweepEnd _ _ hs => cases hs <;> exact hushed_same rfl rfl
  | closeNext _ _ hx => exact hushed_set hx .close rfl rfl rfl rfl
  | @closeEnd listener => cases listener <;> exact hushed_same rfl rfl
  | _ => exact hushed_same rfl rfl

theorem Begins.hushed {r : Request} (hb : Begins s r s₁ job) : Hushed s s₁ := by
  obtain ⟨hfeed, -, hconns, -⟩ := unlisten_frame s
  cases hb with
  | send payload _ hx => exact hushed_set hx (.send payload) rfl rfl rfl rfl
  | close _ hx => exact hushed_set hx .close rfl rfl rfl rfl
  | listen _ hx => exact hushed_set hx (Connection.turn_listen _) rfl rfl rfl rfl
  | @stopReaper r =>
    obtain ⟨hfeed', -, hconns', -⟩ := cancelReaper_frame s.unlisten r
    exact hushed_same (hconns'.trans hconns) (hfeed'.trans hfeed)
  | closeAll => exact hushed_same hconns hfeed
  | _ => exact hushed_same rfl rfl

theorem Turn.ledger_step {a : Action} (ht : Turn behaviour s a s') :
    Ledger.Step behaviour .server s.ledger s'.ledger := by
  cases ht with
  | start | startReaping | rest | connect | pass => exact (hushed_same rfl rfl).step
  | replaceReaper =>
    obtain ⟨hfeed, -, hconns, -⟩ := cancelReaper_frame (s.opened _).spawnReaper _
    exact (hushed_same hconns hfeed).step
  | drop =>
    obtain ⟨hfeed, -, hconns, -⟩ := drop_frame s
    exact (hushed_same hconns hfeed).step
  | subscribe o => exact .subscribe o
  | begin _ hb =>
    have hh := hb.hushed
    exact (Hushed.mk hh.connections hh.raised hh.bus).step
  | work _ hw =>
    obtain ⟨job, s₁, job', -, hw, rfl⟩ := hw
    have hh := hw.hushed
    exact (Hushed.mk hh.connections hh.raised hh.bus).step
  | @on c act x x' feed _ hx _ hs =>
    obtain ⟨es, hlog, hr⟩ := (carries_tell behaviour c).report hs
    have heq : ledger { s.setConnection c x' with feed } =
        { connections := s.connections.set c x', log := s.ledger.log ++ es, bus := feed.bus } := by
      rw [ledger, hlog]
      rfl
    rw [heq]
    exact .report hx hr

theorem keeps_ledger (behaviour : Behaviour) :
    Ledger.Keeps behaviour .server ledger (Reachable behaviour) (Next behaviour) where
  reach hs hn := by
    obtain ⟨a, ha⟩ := hn
    exact .step a hs ha
  step hs hn := by
    obtain ⟨a, ha⟩ := hn
    exact ((sound_of_reachable hs).turn_of_step ha).ledger_step
  logged hs := by
    induction hs with
    | new config => exact ⟨by simp [ledger], by simp [ledger], rfl, fun _ _ => rfl⟩
    | step a hreach hs ih => exact ih.step ((sound_of_reachable hreach).turn_of_step hs).ledger_step
  sound hs := (sound_of_reachable hs).connections

def Joined (behaviour : Behaviour) : Nat → Observer → Server → Server → Prop :=
  Ledger.Joined ledger (Reachable behaviour) (Next behaviour)

end Fanout.Server
