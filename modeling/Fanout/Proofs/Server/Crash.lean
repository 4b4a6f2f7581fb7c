import Fanout.Proofs.Connection.Unwinding
import Fanout.Proofs.Server.Ledger
import Fanout.Proofs.Server.LiveCount
import Fanout.Proofs.Server.Outward

namespace Fanout

def Bus.outcomes (b : Bus) (behaviour : Behaviour) : List Event → List Outcome
  | [] => []
  | e :: es => (b.deliver behaviour e).2 :: outcomes (b.deliver behaviour e).1 behaviour es

def Raised.event (e : Raised) : Event :=
  e.signal.serverEvent e.host

def TaskEnd.ofPanic (outcomes : List Outcome) : TaskEnd :=
  if outcomes = [.raised, .raised] then .aborted else .crashed

theorem TaskEnd.ofPanic_eq_aborted {outcomes : List Outcome} :
    ofPanic outcomes = .aborted ↔ outcomes = [.raised, .raised] := by
  unfold ofPanic
  split
  · exact iff_of_true rfl ‹_›
  · exact iff_of_false nofun ‹_›

namespace Server

variable {behaviour : Behaviour} {s s' : Server} {c : Nat} {a : Connection.Action}
  {x x' : Connection} {f f' : ServerFeed} {entries : List Raised}

theorem entry_of_tell (behaviour : Behaviour) (c : Nat) (x : Connection) (signal : Signal)
    (f : ServerFeed) :
    ∃ e : Raised, (ServerFeed.tell behaviour c x signal f).1.raised = f.raised ++ [e] ∧
      e.event = signal.serverEvent x.host := by
  cases signal <;> exact ⟨_, rfl, rfl⟩

theorem receiver_of_panic (h : Connection.Receives (ServerFeed.tell behaviour c) f x' f')
    (hraised : f'.raised = f.raised ++ entries)
    (hpanic : .raised ∈ f.bus.outcomes behaviour (entries.map Raised.event)) :
    x'.receiver =
      .ended (TaskEnd.ofPanic (f.bus.outcomes behaviour (entries.map Raised.event))) := by
  have answers (y : Connection) (signal : Signal) (f : ServerFeed) :
      (f.bus.deliver behaviour (signal.serverEvent y.host)).2 =
        (ServerFeed.tell behaviour c y signal f).2 :=
    ((carries_tell behaviour c).answers y signal f).symm
  have passes (y : Connection) (signal : Signal) (f : ServerFeed) :
      (f.bus.deliver behaviour (signal.serverEvent y.host)).1 =
        (ServerFeed.tell behaviour c y signal f).1.bus :=
    ((carries_tell behaviour c).passes y signal f).symm
  cases h with
  | waits =>
    obtain rfl := List.append_right_eq_self.mp hraised.symm
    exact absurd hpanic nofun
  | @hears y payload returned =>
    obtain ⟨e, he, hevent⟩ := entry_of_tell behaviour c y (.message payload) f
    obtain rfl := List.append_cancel_left (he.symm.trans hraised)
    simp [Bus.outcomes, hevent, answers, returned] at hpanic
  | @ends y reason hend =>
    obtain ⟨e, he, hevent⟩ := entry_of_tell behaviour c y (.disconnected reason) f
    obtain rfl := List.append_cancel_left (he.symm.trans hraised)
    simp only [Bus.outcomes, List.map_cons, List.map_nil, hevent, answers, List.mem_singleton]
      at hpanic ⊢
    rw [hend, ← hpanic]
    rfl
  | @unwinds y z payload raised hend =>
    obtain ⟨e, he, hevent⟩ := entry_of_tell behaviour c y (.message payload) f
    obtain ⟨e', he', hevent'⟩ := entry_of_tell behaviour c z (.disconnected .aborted)
      (ServerFeed.tell behaviour c y (.message payload) f).1
    rw [he, List.append_assoc] at he'
    obtain rfl := List.append_cancel_left (he'.symm.trans hraised)
    simp only [Bus.outcomes, List.map_cons, List.map_nil, List.singleton_append, hevent, hevent',
      answers, passes, raised]
    rw [hend]
    cases (ServerFeed.tell behaviour c z (.disconnected .aborted)
      (ServerFeed.tell behaviour c y (.message payload) f).1).2 <;> rfl

/-- A connection has ended in one step, and with it nothing else. -/
structure Casualty (s s' : Server) (c : Nat) (entries : List Raised) : Prop where
  before : s.isConnected c = true
  after : s'.isConnected c = false
  own : ∀ e ∈ entries, e.connection = c
  once : entries.countP (fun e => e.signal.isDisconnection) = 1
  live : s'.live + 1 = s.live
  others : ∀ d, d ≠ c → s'.connections[d]? = s.connections[d]?
  observers : s.feed.bus.observers <+: s'.feed.bus.observers
  rest : s' = { s with connections := s'.connections, feed := s'.feed }

theorem Reported.casualty {told : List (Connection × Signal)}
    (h : Reported s s' c x x' told entries) (ht : s.Tallied) (up : x.isConnected = true)
    (down : x'.isConnected = false)
    (observers : s.feed.bus.observers <+: s'.feed.bus.observers)
    (rest : s' = { s with connections := s'.connections, feed := s'.feed }) :
    Casualty s s' c entries := by
  have honce : entries.countP (fun e => e.signal.isDisconnection) = 1 := by
    have hbalance := h.balance
    rw [up, down] at hbalance
    simpa using hbalance
  have hlive : s'.live + 1 = s.live := by
    rw [(h.tallied ht).live, ht.live, h.tally_eq, honce]
  refine ⟨?_, ?_, h.recorded.connection, honce, hlive, fun d hd => ?_, observers, rest⟩
  · rw [h.isConnected_before, up]
  · rw [h.isConnected_after, down]
  · rw [h.connections, List.getElem?_set_ne (Ne.symm hd)]

theorem outward_set (hx' : s'.connections[c]? = some x') {y : Connection}
    (h : x'.outward = y.outward) : s'.outward = (s'.setConnection c y).outward := by
  rw [← outward_setConnection, ← h, outward_setConnection, setConnection_self hx']

theorem panic_ends_one_connection (behaviour : Behaviour) {s s' : Server} {c : Nat}
    {a : Connection.Action} {entries : List Raised} (reachable : Reachable behaviour s)
    (hs : s.step behaviour (.on c a) = some s') (receive : a.isReceive = true)
    (raised : s'.feed.raised = s.feed.raised ++ entries)
    (panics : .raised ∈ s.feed.bus.outcomes behaviour (entries.map Raised.event)) :
    Casualty s s' c entries ∧
      (s'.isAborted = true ↔
        s.feed.bus.outcomes behaviour (entries.map Raised.event) = [.raised, .raised]) ∧
      (s'.isAborted = false → ∃ x taken, s.connections[c]? = some x ∧
        ∀ as, (steps? behaviour as s').map outward =
          (steps? behaviour as (s'.setConnection c (x.hungUp taken))).map outward) := by
  have hsound := sound_of_reachable reachable
  have htallied := tallied_of_reachable reachable
  have present := present_of_step hs
  obtain ⟨x, x', feed, hx, hstep, rfl⟩ := on_of_step hs
  have hturn := Connection.turn_of_step hstep
  have hxsound := hsound.connections hx
  obtain ⟨told, entries', hreported⟩ :=
    hsound.reported hx (Connection.Action.not_call_of_receive receive) hstep
  obtain rfl := List.append_cancel_left (raised.symm.trans hreported.recorded.raised)
  obtain ⟨es, -, hreport⟩ := (carries_tell behaviour c).report hstep
  have hend := receiver_of_panic (Connection.receives_of_step hxsound hstep receive) raised panics
  obtain ⟨hrunning, heq⟩ := hturn.ended receive (by rw [hend]; rfl)
  have up : x.isConnected = true := by
    rw [Connection.isConnected, hxsound.listening_of_active hrunning]
    rfl
  have down : x'.isConnected = false := by
    rw [heq]
    rfl
  have haborted : ({ s.setConnection c x' with feed } : Server).isAborted = true ↔
      x'.receiver = .ended .aborted := isAborted_set present hx rfl
  refine ⟨hreported.casualty htallied up down hreport.delivers.observers rfl, ?_, fun hgoes => ?_⟩
  · rw [haborted, hend, Receiver.ended.injEq, TaskEnd.ofPanic_eq_aborted]
  · have hat : ({ s.setConnection c x' with feed } : Server).connections[c]? = some x' :=
      (getElem?_set_eq_some hx).mpr (.inl ⟨rfl, rfl⟩)
    have hlike : x'.outward = (x.hungUp x'.taken).outward := by
      refine hturn.outward_eq_hungUp receive hend fun h => ?_
      rw [h] at hend
      exact Bool.eq_false_iff.mp hgoes (haborted.mpr hend)
    exact ⟨x, x'.taken, hx, fun as => steps_alike (outward_set hat hlike) behaviour as⟩

def fragile : Behaviour := fun handler _ => if handler = 0 then [.raise] else []

def knock (handler : Handler) : List Action :=
  opening ++ [.resume 0, .subscribe { onMessage := some 0 },
    .subscribe { filter := some "127.0.0.1", onDisconnect := some handler },
    .on 0 (.arrive [104, 105]), .on 0 .look]

theorem panic_ends_visitor :
    ∃ (s s' : Server) (entries : List Raised), Reachable fragile s ∧
      s.step fragile (.on 0 .read) = some s' ∧ s'.feed.raised = s.feed.raised ++ entries ∧
      s.feed.bus.outcomes fragile (entries.map Raised.event) = [.raised, .returned] ∧
      Casualty s s' 0 entries ∧ s'.isAborted = false := by
  let entries : List Raised :=
    [⟨0, "127.0.0.1", .message [104, 105], 1⟩, ⟨0, "127.0.0.1", .disconnected .aborted, 0⟩]
  have knocks : (steps? fragile (knock 1) { config := {} }).any (fun s =>
      (s.step fragile (.on 0 .read)).any fun s' => s'.feed.raised = s.feed.raised ++ entries ∧
        s.feed.bus.outcomes fragile (entries.map Raised.event) = [.raised, .returned]) = true := by
    decide +kernel
  obtain ⟨s, hrun, hknock⟩ := (Option.any_eq_true _ _).mp knocks
  obtain ⟨s', hs, hs'⟩ := (Option.any_eq_true _ _).mp hknock
  obtain ⟨raised, outcomes⟩ := of_decide_eq_true hs'
  have reachable : Reachable fragile s := reachable_of_steps (knock 1) (.new {}) hrun
  obtain ⟨casualty, aborts, -⟩ := panic_ends_one_connection fragile reachable hs rfl raised
    (outcomes ▸ List.mem_cons_self)
  refine ⟨s, s', entries, reachable, hs, raised, outcomes, casualty, ?_⟩
  refine Bool.eq_false_iff.mpr fun h => ?_
  exact absurd (outcomes.symm.trans (aborts.mp h)) nofun

theorem second_panic_ends_all :
    ∃ s s' : Server, Reachable fragile s ∧ s.step fragile (.on 0 .read) = some s' ∧
      s'.isAborted = true ∧ ∀ a, s'.step fragile a = none := by
  have knocks : (steps? fragile (knock 0) { config := {} }).any (fun s =>
      (s.step fragile (.on 0 .read)).any Server.isAborted) = true := by
    decide +kernel
  obtain ⟨s, hrun, hknock⟩ := (Option.any_eq_true _ _).mp knocks
  obtain ⟨s', hs, aborted⟩ := (Option.any_eq_true _ _).mp hknock
  refine ⟨s, s', reachable_of_steps (knock 0) (.new {}) hrun, hs, aborted, fun a => ?_⟩
  unfold step
  exact if_pos aborted

end Server

end Fanout
