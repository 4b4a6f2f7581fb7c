import Fanout.Client.Basic
import Fanout.Proofs.Connection.Lifecycle
import Fanout.Proofs.Observer.Delivery
import Fanout.Server.Feed

namespace Fanout

inductive Audience where
  | server
  | client
  deriving DecidableEq, Repr

def Audience.event : Audience → String → Signal → Event
  | .server => Signal.serverEvent
  | .client => Signal.clientEvent

structure Notice where
  connection : Nat
  host : String
  signal : Signal
  deriving DecidableEq, Repr

def callback? (a : Audience) (o : Observer) (host : String) : Signal → Option Handler
  | .message _ => if o.filter = none ∨ o.filter = some host then o.onMessage else none
  | .disconnected _ => if a = .client ∨ o.filter = some host then o.onDisconnect else none

/-- The events of a log that are kept for an observer; the first event of the log has that number.
-/
def kept (a : Audience) (o : Observer) (number : Nat) (log : List Notice) : List Bus.Heard :=
  (log.zipIdx number).filterMap fun p =>
    (callback? a o p.1.host p.1.signal).map fun handler =>
      { dispatch := p.2, handler, event := a.event p.1.host p.1.signal }

structure Ledger where
  connections : List Connection
  log : List Notice
  bus : Bus

namespace Ledger

variable {behaviour : Behaviour} {a : Audience} {l l' l'' : Ledger} {c i : Nat}
  {x x' : Connection} {xs xs' xs'' : List Connection} {es : List Notice} {b b' : Bus}
  {o : Observer}

/-- Each connection has its signals in the log, in their order and under its host, and each event of
the log has been dispatched under its number. -/
structure Logged (l : Ledger) : Prop where
  told : ∀ {c : Nat} {x : Connection}, l.connections[c]? = some x →
    (l.log.filter fun e => e.connection == c).map Notice.signal = x.signals
  known : ∀ e ∈ l.log, ∃ x, l.connections[e.connection]? = some x ∧ x.host = e.host
  begun : l.bus.begun = l.log.length
  orderly : l.bus.Orderly

theorem handler?_event (a : Audience) (o : Observer) (host : String) (signal : Signal) :
    o.handler? (a.event host signal) = callback? a o host signal := by
  cases signal with
  | message payload =>
    cases a <;> simp [Audience.event, Signal.serverEvent, Signal.clientEvent, Observer.handler?,
      callback?, Observer.wantsMessageFrom_iff]
  | disconnected reason =>
    cases a <;> simp [Audience.event, Signal.serverEvent, Signal.clientEvent, Observer.handler?,
      callback?, Observer.wantsDisconnectionOf_iff]

theorem filterMap_callOf (a : Audience) (o : Observer) (number : Nat) (es : List Notice) :
    ((es.map fun e => a.event e.host e.signal).zipIdx number).filterMap
      (fun p => Bus.callOf p.2 o p.1) = kept a o number es := by
  rw [List.zipIdx_map, List.filterMap_map, kept]
  refine List.filterMap_congr fun p _ => ?_
  simp only [Function.comp, Prod.map, id, Bus.callOf, handler?_event]

def badge (x : Connection) : String × List Signal :=
  (x.host, x.signals)

theorem badge_call {act : Connection.Action} (ht : Connection.Turn x act x')
    (ha : act.isCall = true) : badge x' = badge x := by
  cases ht <;> first | rfl | exact absurd ha nofun

def Quiet (xs xs' : List Connection) : Prop :=
  ∃ new, xs'.map badge = xs.map badge ++ new ∧ ∀ p ∈ new, p.2 = []

theorem quiet_same (xs : List Connection) : Quiet xs xs :=
  ⟨[], by simp, by simp⟩

theorem quiet_concat (xs : List Connection) (hx : x.signals = []) : Quiet xs (xs ++ [x]) :=
  ⟨[badge x], by simp, by simpa [badge] using hx⟩

theorem quiet_set (hx : xs[c]? = some x) (hb : badge x' = badge x) : Quiet xs (xs.set c x') :=
  ⟨[], by rw [map_set_eq badge hx hb, List.append_nil], by simp⟩

theorem Quiet.trans (h : Quiet xs xs') (h' : Quiet xs' xs'') : Quiet xs xs'' := by
  obtain ⟨new, heq, hnew⟩ := h
  obtain ⟨new', heq', hnew'⟩ := h'
  refine ⟨new ++ new', by rw [heq', heq, List.append_assoc], ?_⟩
  intro p hp
  exact (List.mem_append.mp hp).elim (hnew p) (hnew' p)

theorem Quiet.onward (h : Quiet xs xs') (hx : xs[c]? = some x) :
    ∃ x', xs'[c]? = some x' ∧ badge x' = badge x := by
  obtain ⟨new, heq, -⟩ := h
  have hbadge : (xs'.map badge)[c]? = some (badge x) := by
    rw [heq, List.getElem?_append_left (by simpa using (List.getElem?_eq_some_iff.mp hx).1)]
    simp [hx]
  simpa using hbadge

theorem Quiet.origin (h : Quiet xs xs') (hx' : xs'[c]? = some x') :
    (∃ x, xs[c]? = some x ∧ badge x' = badge x) ∨ xs.length ≤ c ∧ x'.signals = [] := by
  obtain ⟨new, heq, hnew⟩ := h
  have hbadge : (xs.map badge ++ new)[c]? = some (badge x') := by
    rw [← heq]
    simp [hx']
  by_cases hlt : c < xs.length
  · rw [List.getElem?_append_left (by simpa using hlt), List.getElem?_map] at hbadge
    obtain ⟨x, hx, hb⟩ := Option.map_eq_some_iff.mp hbadge
    exact .inl ⟨x, hx, hb.symm⟩
  · rw [List.getElem?_append_right (by simpa using hlt)] at hbadge
    exact .inr ⟨Nat.le_of_not_lt hlt, hnew _ (List.mem_of_getElem? hbadge)⟩

structure Report (behaviour : Behaviour) (a : Audience) (c : Nat) (x x' : Connection)
    (es : List Notice) (b b' : Bus) : Prop where
  host : x'.host = x.host
  signals : x'.signals = x.signals ++ es.map Notice.signal
  own : ∀ e ∈ es, e.connection = c ∧ e.host = x.host
  delivers : Bus.Delivers behaviour b (es.map fun e => a.event e.host e.signal) b'
  unheard : b'.Returned behaviour → ∀ i, b.observers.length ≤ i → b'.heard i = b.heard i

structure Carries {σ : Type} (behaviour : Behaviour) (a : Audience) (c : Nat)
    (log : σ → List Notice) (bus : σ → Bus) (tell : Sink σ) : Prop where
  notes : ∀ x signal s,
    log (tell x signal s).1 = log s ++ [{ connection := c, host := x.host, signal }]
  passes : ∀ x signal s,
    bus (tell x signal s).1 = ((bus s).deliver behaviour (a.event x.host signal)).1
  answers : ∀ x signal s,
    (tell x signal s).2 = ((bus s).deliver behaviour (a.event x.host signal)).2

namespace Carries

variable {σ : Type} {log : σ → List Notice} {bus : σ → Bus} {tell : Sink σ} {s s' : σ}
  {act : Connection.Action}

def noticeOf (c : Nat) (p : Connection × Signal) : Notice where
  connection := c
  host := p.1.host
  signal := p.2

theorem tellAll (h : Carries behaviour a c log bus tell) (told : List (Connection × Signal))
    (s : σ) :
    log (Connection.tellAll tell told s) = log s ++ told.map (noticeOf c) ∧
      Bus.Delivers behaviour (bus s)
        ((told.map (noticeOf c)).map fun e => a.event e.host e.signal)
        (bus (Connection.tellAll tell told s)) := by
  induction told generalizing s with
  | nil => exact ⟨(List.append_nil _).symm, .start⟩
  | cons p told ih =>
    obtain ⟨hlog, hbus⟩ := ih (tell p.1 p.2 s).1
    refine ⟨?_, ?_⟩
    · rw [Connection.tellAll, hlog, h.notes, List.append_assoc]
      rfl
    · rw [h.passes] at hbus
      exact (Bus.Delivers.start.deliver (a.event p.1.host p.2)).trans hbus

theorem unheard (h : Carries behaviour a c log bus tell) (hs : x.step tell act s = some (x', s'))
    {told : List (Connection × Signal)} (htold : s' = Connection.tellAll tell told s)
    (hsignals : x'.signals = x.signals ++ told.map Prod.snd) (hr : (bus s').Returned behaviour)
    (hi : (bus s).observers.length ≤ i) : (bus s').heard i = (bus s).heard i := by
  rcases Connection.tells_once_or_raises hs with hlen | ⟨y, signal, hraised, rest, rfl⟩
  · rw [hsignals, List.length_append, List.length_map] at hlen
    cases told with
    | nil => exact htold ▸ rfl
    | cons p rest =>
      rw [List.length_cons] at hlen
      obtain rfl : rest = [] := List.eq_nil_of_length_eq_zero (by omega)
      rw [htold, Connection.tellAll, Connection.tellAll, h.passes]
      exact Bus.unheard_deliver behaviour _ hi
  · have hmore := (h.tellAll rest (tell y signal s).1).2
    have hreturned := Bus.deliver_returned (h.passes y signal s ▸ hr.mono hmore.calls_le)
    rw [h.answers, hreturned] at hraised
    cases hraised

theorem report (h : Carries behaviour a c log bus tell)
    (hs : x.step tell act s = some (x', s')) :
    ∃ es, log s' = log s ++ es ∧ Report behaviour a c x x' es (bus s) (bus s') := by
  obtain ⟨told, htold, hsignals, hfaces⟩ := Connection.reports_step hs
  obtain ⟨hlog, hdelivers⟩ := h.tellAll told s
  refine ⟨told.map (noticeOf c), htold ▸ hlog, (Connection.turn_of_step hs).host, ?_, ?_,
    htold ▸ hdelivers, fun hr i hi => h.unheard hs htold hsignals hr hi⟩
  · rw [hsignals, List.map_map]
    rfl
  · intro e he
    obtain ⟨p, hp, rfl⟩ := List.mem_map.mp he
    exact ⟨rfl, congrArg (fun stream => stream.peer.host) (hfaces p hp).1⟩

end Carries

inductive Step (behaviour : Behaviour) (a : Audience) (l : Ledger) : Ledger → Prop
  | quiet {xs : List Connection} (hq : Quiet l.connections xs) :
      Step behaviour a l { l with connections := xs }
  | subscribe (o : Observer) : Step behaviour a l { l with bus := l.bus.subscribe o }
  | report {c : Nat} {x x' : Connection} {es : List Notice} {b' : Bus}
      (hx : l.connections[c]? = some x) (hr : Report behaviour a c x x' es l.bus b') :
      Step behaviour a l { connections := l.connections.set c x', log := l.log ++ es, bus := b' }

def Steps (behaviour : Behaviour) (a : Audience) : Ledger → Ledger → Prop :=
  Relation.ReflTransGen (Step behaviour a)

theorem Logged.quiet (h : l.Logged) (hq : Quiet l.connections xs) :
    Logged { l with connections := xs } where
  told {c x'} hx' := by
    rcases hq.origin hx' with ⟨x, hx, hb⟩ | ⟨hlen, hnone⟩
    · exact (h.told hx).trans (congrArg Prod.snd hb).symm
    · rw [hnone, List.map_eq_nil_iff, List.filter_eq_nil_iff]
      intro e he hc
      obtain ⟨x, hx, -⟩ := h.known e he
      have hlt := (List.getElem?_eq_some_iff.mp hx).1
      rw [beq_iff_eq] at hc
      omega
  known e he := by
    obtain ⟨x, hx, hhost⟩ := h.known e he
    obtain ⟨x', hx', hb⟩ := hq.onward hx
    exact ⟨x', hx', (congrArg Prod.fst hb).trans hhost⟩
  begun := h.begun
  orderly := h.orderly

theorem Logged.subscribe (h : l.Logged) (o : Observer) :
    Logged { l with bus := l.bus.subscribe o } where
  told := h.told
  known := h.known
  begun := h.begun
  orderly := by
    have hd : Bus.Delivers (fun _ _ => []) l.bus [] (l.bus.subscribe o) := .subscribe .start o
    exact hd.orderly h.orderly

theorem Logged.report (h : l.Logged) (hx : l.connections[c]? = some x)
    (hr : Report behaviour a c x x' es l.bus b') :
    Logged { connections := l.connections.set c x', log := l.log ++ es, bus := b' } where
  told {d y} hy := by
    rw [List.filter_append, List.map_append]
    rcases (getElem?_set_eq_some hx).mp hy with ⟨rfl, rfl⟩ | ⟨hd, hold⟩
    · have hall : es.filter (fun e => e.connection == d) = es := by
        simpa using fun e he => (hr.own e he).1
      rw [h.told hx, hall, hr.signals]
    · have hnone : es.filter (fun e => e.connection == d) = [] := by
        simp only [List.filter_eq_nil_iff, beq_iff_eq]
        intro e he hed
        exact hd (hed.symm.trans (hr.own e he).1)
      rw [h.told hold, hnone, List.map_nil, List.append_nil]
  known e he := by
    rcases List.mem_append.mp he with hold | hnew
    · obtain ⟨y, hy, hhost⟩ := h.known e hold
      by_cases hd : e.connection = c
      · rw [hd] at hy ⊢
        obtain rfl := Option.some.inj (hx.symm.trans hy)
        exact ⟨x', (getElem?_set_eq_some hx).mpr (.inl ⟨rfl, rfl⟩), hr.host.trans hhost⟩
      · exact ⟨y, (getElem?_set_eq_some hx).mpr (.inr ⟨hd, hy⟩), hhost⟩
    · obtain ⟨hc, hhost⟩ := hr.own e hnew
      exact ⟨x', (getElem?_set_eq_some hx).mpr (.inl ⟨hc, rfl⟩), hr.host.trans hhost.symm⟩
  begun := by
    rw [hr.delivers.begun, h.begun, List.length_map, List.length_append]
  orderly := hr.delivers.orderly h.orderly

theorem Logged.step (h : l.Logged) (hs : Step behaviour a l l') : l'.Logged := by
  cases hs with
  | quiet hq => exact h.quiet hq
  | subscribe o => exact h.subscribe o
  | report hx hr => exact h.report hx hr

def Onward (behaviour : Behaviour) (a : Audience) (l l' : Ledger) : Prop :=
  ∃ es, l'.log = l.log ++ es ∧
    Bus.Delivers behaviour l.bus (es.map fun e => a.event e.host e.signal) l'.bus

theorem onward_refl (l : Ledger) : Onward behaviour a l l :=
  ⟨[], (List.append_nil _).symm, .start⟩

theorem Onward.trans (h : Onward behaviour a l l') (h' : Onward behaviour a l' l'') :
    Onward behaviour a l l'' := by
  obtain ⟨es, hlog, hd⟩ := h
  obtain ⟨es', hlog', hd'⟩ := h'
  refine ⟨es ++ es', by rw [hlog', hlog, List.append_assoc], ?_⟩
  rw [List.map_append]
  exact hd.trans hd'

theorem Step.onward (h : Step behaviour a l l') : Onward behaviour a l l' := by
  cases h with
  | quiet => exact onward_refl l
  | subscribe o => exact ⟨[], (List.append_nil _).symm, Bus.Delivers.start.subscribe o⟩
  | report hx hr => exact ⟨_, rfl, hr.delivers⟩

theorem Steps.onward (h : Steps behaviour a l l') : Onward behaviour a l l' := by
  induction h with
  | refl => exact onward_refl l
  | tail _ hs ih => exact ih.trans hs.onward

theorem Steps.logged (h : Steps behaviour a l l') (hl : l.Logged) : l'.Logged := by
  induction h with
  | refl => exact hl
  | tail _ hs ih => exact ih.step hs

theorem Step.unheard (h : Step behaviour a l l') (hr : l'.bus.Returned behaviour)
    (hi : l.bus.observers.length ≤ i) : l'.bus.heard i = l.bus.heard i := by
  cases h with
  | quiet | subscribe => rfl
  | report hx hreport => exact hreport.unheard hr i hi

end Ledger

end Fanout
