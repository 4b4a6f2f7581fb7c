import Fanout.CommandLine.Serving
import Fanout.Proofs.Connection.Receipt
import Fanout.Proofs.Server.Ledger
import Fanout.Proofs.Server.Restart
import Fanout.Proofs.Server.Tenure

namespace Fanout

namespace Serving

def arrival? (e : Raised) : Option (Nat × List UInt8) :=
  e.signal.payload?.map (e.connection, ·)

def parcel? (e : Raised) : Option (String × List UInt8) :=
  e.signal.payload?.map (e.host, ·)

/-- The program's observer is the only one, and has been told of every message. -/
structure Heard (f : ServerFeed) : Prop where
  observers : f.bus.observers = [observer]
  log : f.bus.log.filterMap messageOf? = f.raised.filterMap parcel?

variable {f : ServerFeed} {server server' : Server} {s : Serving} {c : Nat} {x : Connection}
  {a : Server.Action}

theorem Heard.tell (h : Heard f) (c : Nat) (x : Connection) (signal : Signal) :
    Heard (ServerFeed.tell behaviour c x signal f).1 := by
  obtain ⟨⟨observers, log, begun⟩, live, raised⟩ := f
  obtain ⟨hobservers, hlog⟩ := h
  obtain rfl : observers = [observer] := hobservers
  cases signal with
  | message payload =>
    refine ⟨rfl, ?_⟩
    change (log ++ [Record.call begun 0 0 (.message x.host payload)]).filterMap messageOf? =
      (raised ++ [_]).filterMap parcel?
    rw [List.filterMap_append, List.filterMap_append, hlog]
    rfl
  | disconnected reason =>
    refine ⟨rfl, ?_⟩
    change log.filterMap messageOf? = (raised ++ [_]).filterMap parcel?
    rw [List.filterMap_append, hlog]
    exact (List.append_nil _).symm

theorem Heard.tellAll (h : Heard f) (c : Nat) (told : List (Connection × Signal)) :
    Heard (Connection.tellAll (ServerFeed.tell behaviour c) told f) := by
  induction told generalizing f with
  | nil => exact h
  | cons p told ih => exact ih (h.tell c p.1 p.2)

theorem tellAll_raised (c : Nat) (told : List (Connection × Signal)) (f : ServerFeed) :
    f.raised <+: (Connection.tellAll (ServerFeed.tell behaviour c) told f).raised := by
  induction told generalizing f with
  | nil => exact List.prefix_rfl
  | cons p told ih =>
    refine List.IsPrefix.trans ?_ (ih _)
    cases p.2 with
    | message | disconnected => exact List.prefix_append _ _

theorem feed_of_step (hsound : server.Sound) (hs : server.step behaviour a = some server')
    (ha : isForeign a = true ∨ ∃ r, a = .begin r) :
    (server'.feed.bus = server.feed.bus ∧ server'.feed.raised = server.feed.raised) ∨
      ∃ c told,
        server'.feed = Connection.tellAll (ServerFeed.tell behaviour c) told server.feed := by
  have present := Server.present_of_step hs
  have worked {t : Nat} (ht : a.task? = some t) :
      server'.feed.bus = server.feed.bus ∧ server'.feed.raised = server.feed.raised := by
    obtain ⟨job, s₁, job', -, hw, rfl⟩ := Server.works_of_step hsound hs ht
    exact ⟨hw.hushed.bus, hw.hushed.raised⟩
  cases a with
  | start | subscribe | drop => exact absurd ha (by simp [isForeign])
  | begin r =>
    obtain ⟨s₁, job, hb, rfl⟩ := Server.begins_of_step hs
    exact .inl ⟨hb.hushed.bus, hb.hushed.raised⟩
  | connect l stream =>
    obtain ⟨-, rfl⟩ : l < server.listeners.length ∧ _ = server' := by
      simpa [Server.step, present] using hs
    exact .inl ⟨rfl, rfl⟩
  | pass ms =>
    obtain rfl : _ = server' := by simpa [Server.step, present] using hs
    exact .inl ⟨rfl, rfl⟩
  | acceptPeer | acceptClosed | acceptExpired | acceptFailed | resume => exact .inl (worked rfl)
  | on c act =>
    obtain ⟨x, x', feed, hx, hstep, rfl⟩ := Server.on_of_step hs
    obtain ⟨told, heq, -⟩ := Connection.reports_step hstep
    exact .inr ⟨c, told, heq⟩

theorem Heard.step (h : Heard server.feed) (hsound : server.Sound)
    (hs : server.step behaviour a = some server')
    (ha : isForeign a = true ∨ ∃ r, a = .begin r) :
    Heard server'.feed ∧ server.feed.raised <+: server'.feed.raised := by
  rcases feed_of_step hsound hs ha with ⟨hbus, hraised⟩ | ⟨c, told, heq⟩
  · have hlog : server'.feed.bus.log.filterMap messageOf? = server'.feed.raised.filterMap parcel? := by
      rw [hbus, hraised, h.log]
    exact ⟨⟨hbus ▸ h.observers, hlog⟩, hraised ▸ List.prefix_rfl⟩
  · rw [heq]
    exact ⟨h.tellAll c told, tellAll_raised c told _⟩

def arrivals (s : Serving) : List (Nat × List UInt8) :=
  s.server.feed.raised.filterMap arrival?

def payloadsFrom (s : Serving) (c : Nat) : List (List UInt8) :=
  (s.arrivals.filter fun p => p.1 == c).map Prod.snd

def payloadsOf (s : Serving) (host : String) : List (List UInt8) :=
  (s.arrivals.filter fun p => s.server.hostOf p.1 == host).map Prod.snd

theorem arrival_known (hl : s.server.ledger.Logged) {p : Nat × List UInt8} (hp : p ∈ s.arrivals) :
    ∃ x, s.server.connections[p.1]? = some x := by
  obtain ⟨e, he, harrival⟩ := List.mem_filterMap.mp hp
  obtain ⟨payload, -, rfl⟩ := Option.map_eq_some_iff.mp harrival
  obtain ⟨x, hx, -⟩ := hl.known (Server.notice e) (List.mem_map_of_mem he)
  exact ⟨x, hx⟩

theorem Heard.received_eq (h : Heard s.server.feed) (hl : s.server.ledger.Logged) :
    s.received = s.arrivals.map fun p => (s.server.hostOf p.1, p.2) := by
  rw [received, h.log, arrivals, List.map_filterMap]
  refine List.filterMap_congr fun e he => ?_
  obtain ⟨x, hx, hhost⟩ := hl.known (Server.notice e) (List.mem_map_of_mem he)
  have hof : s.server.hostOf e.connection = e.host := by
    rw [Server.hostOf, show s.server.connections[e.connection]? = some x from hx]
    exact hhost
  simp [parcel?, arrival?, Function.comp_def, hof]

theorem arrivals_of (raised : List Raised) (c : Nat) :
    ((raised.filterMap arrival?).filter fun p => p.1 == c).map Prod.snd =
      (raised.filter fun e => e.connection == c).filterMap fun e => e.signal.payload? := by
  induction raised with
  | nil => rfl
  | cons e raised ih =>
    cases hp : e.signal.payload? with
    | none => by_cases hc : e.connection = c <;> simp [arrival?, hp, hc, ih]
    | some payload => by_cases hc : e.connection = c <;> simp [arrival?, hp, hc, ih]

theorem payloadsFrom_eq (hl : s.server.ledger.Logged) (hx : s.server.connections[c]? = some x) :
    s.payloadsFrom c = Connection.delivered x.signals := by
  rw [payloadsFrom, arrivals, arrivals_of, ← hl.told hx, Connection.delivered, Server.ledger,
    List.filter_map, List.map_map, List.filterMap_map]
  rfl

theorem payloadsFrom_flatten (hreach : Server.Reachable behaviour s.server)
    (hx : s.server.connections[c]? = some x) :
    (s.payloadsFrom c).flatten = x.stream.arrived.take x.taken := by
  rw [payloadsFrom_eq ((Server.keeps_ledger behaviour).logged hreach) hx]
  exact (Connection.received_of_reachable (Server.connection_reachable hreach hx)).flatten

end Serving

end Fanout
