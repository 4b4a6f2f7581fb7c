import Fanout.Proofs.Address.RoundTrip
import Fanout.Proofs.Observer.Delivery
import Fanout.Proofs.Observer.Selection
import Fanout.Proofs.Sending.Addressed

namespace Fanout

variable {p q : SocketAddress} {ip : Ip} {x : Connection} {o : Observer} {signal : Signal}
  {h : Handler}

namespace Ip

variable {ip' : Ip}

/-- The address `::ffff:a.b.c.d` holds `a.b.c.d`. -/
inductive Holds : Ip → Ip → Prop
  | octets {a b c d : UInt8} {g h : UInt16} (hg : g.toNat = 256 * a.toNat + b.toNat)
      (hh : h.toNat = 256 * c.toNat + d.toNat) :
      Holds (.v6 0 0 0 0 0 0xffff g h) (.v4 a b c d)

/-- One and the same address, or one of them holds the other. -/
def SameHost (ip ip' : Ip) : Prop :=
  ip = ip' ∨ ip.Holds ip' ∨ ip'.Holds ip

theorem mapped_holds (a b c d : UInt8) : (v4 a b c d).mapped.Holds (v4 a b c d) :=
  .octets (toNat_groupOf a b) (toNat_groupOf c d)

theorem Holds.eq_mapped (h : ip.Holds ip') : ip = ip'.mapped := by
  cases h with
  | octets hg hh =>
    rw [mapped, ← UInt16.toNat_inj.mp (hg.trans (toNat_groupOf _ _).symm),
      ← UInt16.toNat_inj.mp (hh.trans (toNat_groupOf _ _).symm)]

theorem Holds.canonical_left (h : ip.Holds ip') : ip.canonical = ip' := by
  rw [h.eq_mapped]
  cases h with
  | octets => exact canonical_mapped _ _ _ _

theorem Holds.canonical_right (h : ip.Holds ip') : ip'.canonical = ip' := by
  cases h with
  | octets => rfl

theorem canonical_of_holds_none (h : ∀ ip', ¬ ip.Holds ip') : ip.canonical = ip :=
  canonical_eq_self fun a b c d hmapped => h (v4 a b c d) (hmapped ▸ mapped_holds a b c d)

theorem canonical_cases (ip : Ip) : ip.Holds ip.canonical ∨ ip.canonical = ip := by
  by_cases h : ∃ ip', ip.Holds ip'
  · obtain ⟨ip', hholds⟩ := h
    exact .inl (hholds.canonical_left.symm ▸ hholds)
  · exact .inr (canonical_of_holds_none (not_exists.mp h))

theorem canonical_eq_iff (ip ip' : Ip) : ip.canonical = ip'.canonical ↔ ip.SameHost ip' := by
  constructor
  · intro heq
    rcases canonical_cases ip with h | h <;> rcases canonical_cases ip' with h' | h'
    · exact .inl (h.eq_mapped.trans (heq ▸ h'.eq_mapped.symm))
    · exact .inr (.inl (h' ▸ heq ▸ h))
    · exact .inr (.inr (h ▸ heq ▸ h'))
    · exact .inl (h.symm.trans (heq.trans h'))
  · rintro (rfl | h | h)
    · rfl
    · exact h.canonical_left.trans h.canonical_right.symm
    · exact h.canonical_right.trans h.canonical_left.symm

theorem text_inj (h : ip.text = ip'.text) : ip = ip' := by
  have hread := ofText?_text ip
  rw [h, ofText?_text] at hread
  exact (Option.some.inj hread).symm

end Ip

theorem SocketAddress.host_eq_iff (p q : SocketAddress) :
    p.host = q.host ↔ p.ip.SameHost q.ip :=
  (Iff.intro Ip.text_inj (congrArg Ip.text)).trans (Ip.canonical_eq_iff p.ip q.ip)

theorem SocketAddress.ofText?_host (p : SocketAddress) :
    Ip.ofText? p.host = some p.ip.canonical :=
  Ip.ofText?_text p.ip.canonical

theorem SocketAddress.host_ne_empty (p : SocketAddress) : p.host ≠ "" := by
  have hempty : Ip.ofText? "" = none := by decide +kernel
  intro h
  have hread := p.ofText?_host
  rw [h, hempty] at hread
  cases hread

def Connection.IsFrom (x : Connection) (ip : Ip) : Prop :=
  x.stream.peer.ip.SameHost ip

theorem Connection.host_eq_iff : x.host = p.host ↔ x.IsFrom p.ip :=
  SocketAddress.host_eq_iff x.stream.peer p

namespace Server

variable {s s₁ : Server} {c : Nat}

def IsFrom (s : Server) (c : Nat) (ip : Ip) : Prop :=
  ∃ x, s.connections[c]? = some x ∧ x.IsFrom ip

def IsFirstFrom (s : Server) (ip : Ip) (c : Nat) : Prop :=
  ∃ before after, s.registry = before ++ c :: after ∧ s.IsFrom c ip ∧
    ∀ d ∈ before, ¬ s.IsFrom d ip

theorem hostOf_eq_iff : s.hostOf c = p.host ↔ s.IsFrom c p.ip := by
  cases hx : s.connections[c]? with
  | none => simp [hostOf, IsFrom, hx, Ne.symm p.host_ne_empty]
  | some x => simp [hostOf, IsFrom, hx, Connection.host_eq_iff]

theorem isFirst_iff : s.IsFirst p.host c ↔ s.IsFirstFrom p.ip c := by
  simp only [IsFirst, IsFirstFrom, ne_eq, hostOf_eq_iff]

theorem find?_host_eq_some_iff :
    (s.registry.find? fun c => s.hostOf c == p.host) = some c ↔ s.IsFirstFrom p.ip c := by
  simp [List.find?_eq_some_iff_append, IsFirstFrom, hostOf_eq_iff, and_left_comm]

theorem find?_host_eq_none_iff :
    (s.registry.find? fun c => s.hostOf c == p.host) = none ↔
      ∀ c ∈ s.registry, ¬ s.IsFrom c p.ip := by
  simp [List.find?_eq_none, hostOf_eq_iff]

theorem IsFirstFrom.unique {c' : Nat} (h : s.IsFirstFrom p.ip c) (h' : s.IsFirstFrom p.ip c') :
    c = c' :=
  Option.some.inj ((find?_host_eq_some_iff.mpr h).symm.trans (find?_host_eq_some_iff.mpr h'))

inductive Routes (s : Server) (t : Nat) (p : SocketAddress) (payload : List UInt8) :
    Server → Prop
  | first {c : Nat} {x : Connection} (hfirst : s.IsFirstFrom p.ip c)
      (hx : s.connections[c]? = some x) :
      Routes s t p payload ((s.setConnection c (x.beginSend payload)).setTask t
        (.sendTo p.host payload (some (c, x.calls.length))))
  | missing (hnone : ∀ c ∈ s.registry, ¬ s.IsFrom c p.ip) :
      Routes s t p payload (s.finish t (.failed (.clientNotFound p.host)))

variable {behaviour : Behaviour} {t : Nat} {payload : List UInt8}

theorem Routes.eq_of_first (hroutes : Routes s t p payload s₁) (hfirst : s.IsFirstFrom p.ip c)
    (hx : s.connections[c]? = some x) :
    s₁ = (s.setConnection c (x.beginSend payload)).setTask t
      (.sendTo p.host payload (some (c, x.calls.length))) := by
  cases hroutes with
  | first hfirst' hx' =>
    obtain rfl := hfirst.unique hfirst'
    obtain rfl := Option.some.inj (hx.symm.trans hx')
    rfl
  | missing hnone =>
    obtain ⟨before, after, hreg, hfrom, -⟩ := hfirst
    exact absurd hfrom (hnone c (by simp [hreg]))

theorem routes_of_sendToFirst (hs : s.Sound) (t : Nat) (p : SocketAddress)
    (payload : List UInt8) :
    ∃ s', s.sendToFirst t p.host payload = some s' ∧ Routes s t p payload s' := by
  cases hf : s.registry.find? fun c => s.hostOf c == p.host with
  | none => exact ⟨_, by simp only [sendToFirst, hf], .missing (find?_host_eq_none_iff.mp hf)⟩
  | some c =>
    obtain ⟨x, hx⟩ := hs.knows c (List.mem_of_find?_eq_some hf)
    exact ⟨_, by simp [sendToFirst, hf, beginSend, hx], .first (find?_host_eq_some_iff.mp hf) hx⟩

theorem routes_of_resume (hs : s.Sound) (present : s.isAborted = false)
    (waits : s.tasks[t]? = some (.sendTo p.host payload none)) (held : s.lock.isHeldBy t = true) :
    ∃ s', s.step behaviour (.resume t) = some s' ∧ Routes s t p payload s' := by
  obtain ⟨s', hs', hroutes⟩ := routes_of_sendToFirst hs t p payload
  exact ⟨s', by simp [step, present, resume, waits, awaited?, proceed, held, hs'], hroutes⟩

end Server

def Observer.callback? (o : Observer) : Signal → Option Handler
  | .message _ => o.onMessage
  | .disconnected _ => o.onDisconnect

theorem Observer.filter_forAddress_host (p : SocketAddress) :
    (Observer.forAddress p.host).filter = some p.host :=
  if_neg p.host_ne_empty

theorem Observer.handler?_host (hfilter : o.filter = some p.host) (signal : Signal) :
    o.handler? (signal.serverEvent x.host) = some h ↔
      x.IsFrom p.ip ∧ o.callback? signal = some h := by
  rw [← Connection.host_eq_iff, eq_comm (a := x.host)]
  cases signal with
  | message payload =>
    simp [Signal.serverEvent, handler?, wantsMessageFrom_iff, callback?, hfilter]
  | disconnected reason =>
    simp [Signal.serverEvent, handler?, wantsDisconnectionOf_iff, callback?, hfilter]

theorem Bus.heard_of_deliver {b : Bus} {i : Nat} (behaviour : Behaviour) (e : Event)
    (ho : b.observers[i]? = some o) :
    ∃ called, (b.deliver behaviour e).1.heard i = b.heard i ++ called ∧
      called <+: (Bus.callOf b.begun o e).toList ∧
      ((b.deliver behaviour e).2 = .returned → called = (Bus.callOf b.begun o e).toList) := by
  obtain ⟨called, ⟨rest, hrest⟩, hall, hheard⟩ := (dispatched_deliver behaviour b e).heard
  have hcalls : ((b.handlers e).map (callRecord b.begun e)).filterMap (heardBy? i) =
      (callOf b.begun o e).toList := by
    rw [filterMap_handlers, ho, Option.bind_some]
  refine ⟨_, hheard i, ?_, fun hout => ?_⟩
  · rw [← hcalls, ← hrest, List.map_append, List.filterMap_append]
    exact List.prefix_append _ _
  · rw [hall hout, hcalls]

structure Observer.HearsHost (behaviour : Behaviour) (f : ServerFeed) (c : Nat) (x : Connection)
    (signal : Signal) (i : Nat) (o : Observer) (p : SocketAddress) : Prop where
  selected : ∀ h, (i, h) ∈ f.bus.handlers (signal.serverEvent x.host) ↔
    x.IsFrom p.ip ∧ o.callback? signal = some h
  others : ¬ x.IsFrom p.ip →
    (ServerFeed.tell behaviour c x signal f).1.bus.heard i = f.bus.heard i
  own : x.IsFrom p.ip → (ServerFeed.tell behaviour c x signal f).2 = .returned →
    (ServerFeed.tell behaviour c x signal f).1.bus.heard i = f.bus.heard i ++
      ((o.callback? signal).map fun h =>
        { dispatch := f.bus.begun, handler := h, event := signal.serverEvent p.host }).toList

theorem ServerFeed.tell_delivers (behaviour : Behaviour) (c : Nat) (x : Connection)
    (signal : Signal) (f : ServerFeed) :
    (ServerFeed.tell behaviour c x signal f).1.bus =
        (f.bus.deliver behaviour (signal.serverEvent x.host)).1 ∧
      (ServerFeed.tell behaviour c x signal f).2 =
        (f.bus.deliver behaviour (signal.serverEvent x.host)).2 := by
  cases signal <;> exact ⟨rfl, rfl⟩

theorem Observer.hearsHost {f : ServerFeed} {i : Nat} (behaviour : Behaviour) (c : Nat)
    (x : Connection) (signal : Signal) (ho : f.bus.observers[i]? = some o)
    (hfilter : o.filter = some p.host) : HearsHost behaviour f c x signal i o p := by
  obtain ⟨hbus, houtcome⟩ := ServerFeed.tell_delivers behaviour c x signal f
  obtain ⟨called, hcalled, hprefix, hall⟩ :=
    Bus.heard_of_deliver behaviour (signal.serverEvent x.host) ho
  refine ⟨fun h => ?_, fun hother => ?_, fun hown hout => ?_⟩
  · rw [(Bus.selects_handlers f.bus _).mem_iff, ← handler?_host hfilter signal]
    constructor
    · rintro ⟨o', ho', htakes⟩
      obtain rfl := Option.some.inj (ho.symm.trans ho')
      exact handler?_eq_some_iff.mpr htakes
    · intro hh
      exact ⟨o, ho, handler?_eq_some_iff.mp hh⟩
  · have hnone : o.handler? (signal.serverEvent x.host) = none :=
      Option.eq_none_iff_forall_ne_some.mpr fun h hh =>
        hother ((handler?_host hfilter signal).mp hh).1
    have hsilent : called = [] := by simpa [Bus.callOf, hnone] using hprefix
    rw [hbus, hcalled, hsilent, List.append_nil]
  · have hsame : o.handler? (signal.serverEvent x.host) = o.callback? signal :=
      Option.ext fun h => (handler?_host hfilter signal).trans (and_iff_right hown)
    rw [hbus, hcalled, hall (houtcome ▸ hout), Bus.callOf, hsame, Connection.host_eq_iff.mpr hown]

theorem host_text_selects_one_host :
    (∀ p q : SocketAddress, p.host = q.host ↔ p.ip.SameHost q.ip) ∧
      (∀ p : SocketAddress, Ip.ofText? p.host = some p.ip.canonical) ∧
      (∀ ip ip' : Ip, ip.Holds ip' → ip.canonical = ip') ∧
      (∀ ip : Ip, (∀ ip', ¬ ip.Holds ip') → ip.canonical = ip) ∧
      (∀ {behaviour : Behaviour} {s : Server} {t : Nat} (p : SocketAddress)
          {payload : List UInt8}, Server.Reachable behaviour s → s.isAborted = false →
        s.tasks[t]? = some (.sendTo p.host payload none) → s.lock.isHeldBy t = true →
        (∃ s', s.step behaviour (.resume t) = some s' ∧ s.Routes t p payload s') ∧
          ∀ {calls s₁}, Server.Tenure behaviour t s calls s₁ →
            calls.length ≤ 1 ∧ ∀ r ∈ calls, s.IsFirstFrom p.ip r.1 ∧ s₁.Sends payload r) ∧
      (∀ p : SocketAddress, (Observer.forAddress p.host).filter = some p.host) ∧
      ∀ (behaviour : Behaviour) {f : ServerFeed} {i : Nat} {o : Observer} (p : SocketAddress),
        f.bus.observers[i]? = some o → o.filter = some p.host →
        ∀ c x signal, Observer.HearsHost behaviour f c x signal i o p := by
  refine ⟨SocketAddress.host_eq_iff, SocketAddress.ofText?_host, fun _ _ => Ip.Holds.canonical_left,
    fun _ => Ip.canonical_of_holds_none, ?_, Observer.filter_forAddress_host, ?_⟩
  · intro behaviour s t p payload reachable present waits held
    refine ⟨Server.routes_of_resume (Server.sound_of_reachable reachable) present waits held, ?_⟩
    intro calls s₁ tenure
    obtain ⟨job, -, hseeks⟩ := Server.seeks_of_tenure reachable waits tenure
    refine ⟨hseeks.attempts.1, fun r hr => ?_⟩
    exact ⟨Server.isFirst_iff.mp (hseeks.attempts.2 r hr).1, (hseeks.attempts.2 r hr).2⟩
  · intro behaviour f i o p ho hfilter c x signal
    exact Observer.hearsHost behaviour c x signal ho hfilter

def stranger : Stream where
  peer := { ip := .v6 0 0 0 0 0 0xffff 0x7f00 2, port := 9 }

def mappedVisitor : Stream where
  peer := { ip := Ip.loopback.mapped, port := 10 }

def watcher : Observer :=
  { Observer.forAddress Server.visitor.peer.host with onMessage := some 0 }

/-- Two peers with mapped addresses are registered, of which the second one is of the host that is
watched and sent to. -/
def twoMapped : List Server.Action :=
  [.start 65123 false (.ok Server.address), .subscribe watcher, .begin (.accept 0),
    .connect 0 stranger, .acceptPeer 0, .resume 0, .begin (.accept 0), .connect 0 mappedVisitor,
    .acceptPeer 1, .resume 1, .begin (.sendTo Server.visitor.peer.host [104, 105])]

theorem mapped_visitor_is_selected :
    ∃ s x, Server.Reachable Server.quietObservers s ∧
      s.tasks[2]? = some (.sendTo Server.visitor.peer.host [104, 105] none) ∧
      s.connections.map (fun y => y.stream.peer) = [stranger.peer, mappedVisitor.peer] ∧
      s.registry = [0, 1] ∧ s.connections[1]? = some x ∧
      s.step Server.quietObservers (.resume 2) =
        some ((s.setConnection 1 (x.beginSend [104, 105])).setTask 2
          (.sendTo Server.visitor.peer.host [104, 105] (some (1, x.calls.length)))) ∧
      ∀ h, (0, h) ∈ s.feed.bus.handlers (Signal.serverEvent x.host (.message [106])) ↔ h = 0 := by
  have comes : (Server.steps? Server.quietObservers twoMapped { config := {} }).any (fun s =>
      !s.isAborted ∧ s.lock.isHeldBy 2 ∧ s.registry = [0, 1] ∧
        s.tasks[2]? = some (.sendTo Server.visitor.peer.host [104, 105] none) ∧
        s.feed.bus.observers[0]? = some watcher ∧ watcher.filter = some Server.visitor.peer.host ∧
        s.connections.map (fun y => y.stream.peer) = [stranger.peer, mappedVisitor.peer]) =
          true := by
    decide +kernel
  obtain ⟨s, hrun, hs⟩ := (Option.any_eq_true _ _).mp comes
  obtain ⟨present, held, registered, waits, watched, hfilter, hpeers⟩ := of_decide_eq_true hs
  have reachable := Server.reachable_of_steps twoMapped (.new {}) hrun
  obtain ⟨same, -, -, -, sends, -, hears⟩ := host_text_selects_one_host
  obtain ⟨y, xs, hlist, hy, hrest⟩ := List.map_eq_cons_iff.mp hpeers
  obtain ⟨x, ys, rfl, hx, -⟩ := List.map_eq_cons_iff.mp hrest
  have hsame : mappedVisitor.peer.host = Server.visitor.peer.host := by decide +kernel
  have hother : stranger.peer.host ≠ Server.visitor.peer.host := by decide +kernel
  have own : x.IsFrom Server.visitor.peer.ip := (same x.stream.peer _).mp (hx ▸ hsame)
  have other : ¬ y.IsFrom Server.visitor.peer.ip := fun h =>
    hother (hy ▸ (same y.stream.peer _).mpr h)
  have hx₁ : s.connections[1]? = some x := by simp [hlist]
  have first : s.IsFirstFrom Server.visitor.peer.ip 1 := by
    refine ⟨[0], [], registered, ⟨x, hx₁, own⟩, ?_⟩
    simpa [Server.IsFrom, hlist] using other
  obtain ⟨⟨s₁, hstep, routes⟩, -⟩ :=
    sends Server.visitor.peer reachable (by simpa using present) waits held
  refine ⟨s, x, reachable, waits, hpeers, registered, hx₁, ?_, fun h => ?_⟩
  · exact routes.eq_of_first first hx₁ ▸ hstep
  · have heard := hears Server.quietObservers Server.visitor.peer watched hfilter 1 x (.message [106])
    rw [heard.selected]
    simp [own, Observer.callback?, watcher, eq_comm]

end Fanout
