import Fanout.Proofs.Client.Ledger
import Fanout.Proofs.Server.Ledger

namespace Fanout

theorem observers_hear_the_filtered_log {behaviour behaviour' : Behaviour} {s : Server} {k : Client}
    (hs : Server.Reachable behaviour s) (hk : Client.Reachable behaviour' k)
    (returned : s.feed.bus.Returned behaviour) (returned' : k.feed.bus.Returned behaviour') :
    (∀ i o, s.feed.bus.observers[i]? = some o →
      (∃ s₁, Server.Joined behaviour i o s₁ s) ∧
        ∀ s₁, Server.Joined behaviour i o s₁ s →
          Ledger.Hears .server o s₁.ledger s.ledger (s.feed.bus.heard i)) ∧
      ∀ i o, k.feed.bus.observers[i]? = some o →
        (∃ k₁, Client.Joined behaviour' i o k₁ k) ∧
          ∀ k₁, Client.Joined behaviour' i o k₁ k →
            Ledger.Hears .client o k₁.ledger k.ledger (k.feed.bus.heard i) := by
  refine ⟨fun i o ho => ⟨?_, fun s₁ hj => ?_⟩, fun i o ho => ⟨?_, fun k₁ hj => ?_⟩⟩
  · obtain ⟨config, run⟩ := Server.run_of_reachable hs
    exact (Server.keeps_ledger behaviour).exists_joined (.new config) rfl run ho
  · exact (Server.keeps_ledger behaviour).hears hj returned
  · obtain ⟨config, run⟩ := Client.run_of_reachable hk
    exact (Client.keeps_ledger behaviour').exists_joined (.new config) rfl run ho
  · exact (Client.keeps_ledger behaviour').hears hj returned'

def guest : Observer where
  onMessage := some 1
  onDisconnect := some 2

def hospitable : Behaviour := fun h n => if h = 0 ∧ n = 0 then [.subscribe guest] else []

theorem hospitable_returned (b : Bus) : b.Returned hospitable := by
  intro h n _
  unfold hospitable
  split <;> simp

def doorman : Observer where
  filter := some "127.0.0.1"
  onMessage := some 0
  onDisconnect := some 3

def evening : List Server.Action :=
  Server.opening ++ [.resume 0, .subscribe doorman, .on 0 (.arrive [104]), .on 0 .look, .on 0 .read,
    .on 0 (.arrive [105]), .on 0 .look, .on 0 .read, .on 0 (.finish .finished), .on 0 .look,
    .on 0 .read]

def visit : List Client.Action :=
  [.subscribe doorman, .begin (.connect "127.0.0.1" 9), .connected 0 Server.visitor,
    .on 0 (.arrive [104]), .on 0 .look, .on 0 .read, .on 0 (.finish .finished), .on 0 .look,
    .on 0 .read]

theorem guest_hears_what_follows :
    ∃ (s s₁ : Server) (k k₁ : Client), Server.Joined hospitable 1 guest s₁ s ∧
      Client.Joined hospitable 1 guest k₁ k ∧
      s.feed.bus.heard 1 = [⟨1, 1, .message "127.0.0.1" [105]⟩] ∧
      k.feed.bus.heard 1 = [⟨1, 2, .disconnectionToAll "127.0.0.1" "Client closed connection"⟩] ∧
      Ledger.Hears .server guest s₁.ledger s.ledger (s.feed.bus.heard 1) ∧
      Ledger.Hears .client guest k₁.ledger k.ledger (k.feed.bus.heard 1) := by
  have served : (Server.steps? hospitable evening { config := {} }).map
      (fun s => (s.feed.bus.observers, s.feed.bus.heard 1)) =
        some ([doorman, guest], [⟨1, 1, .message "127.0.0.1" [105]⟩]) := by
    decide +kernel
  have visited : (Client.steps? hospitable visit { config := {} }).map
      (fun k => (k.feed.bus.observers, k.feed.bus.heard 1)) =
        some ([doorman, guest],
          [⟨1, 2, .disconnectionToAll "127.0.0.1" "Client closed connection"⟩]) := by
    decide +kernel
  obtain ⟨s, hsteps, hserved⟩ := Option.map_eq_some_iff.mp served
  obtain ⟨k, hsteps', hvisited⟩ := Option.map_eq_some_iff.mp visited
  obtain ⟨hobservers, hheard⟩ := Prod.mk.inj hserved
  obtain ⟨hobservers', hheard'⟩ := Prod.mk.inj hvisited
  obtain ⟨server, client⟩ := observers_hear_the_filtered_log
    (Server.reachable_of_steps evening (.new {}) hsteps)
    (Client.reachable_of_steps {} visit hsteps') (hospitable_returned _) (hospitable_returned _)
  obtain ⟨⟨s₁, joined⟩, hears⟩ := server 1 guest (by rw [hobservers]; rfl)
  obtain ⟨⟨k₁, joined'⟩, hears'⟩ := client 1 guest (by rw [hobservers']; rfl)
  exact ⟨s, s₁, k, k₁, joined, joined', hheard, hheard', hears s₁ joined, hears' k₁ joined'⟩

end Fanout
