import Fanout.Proofs.CommandLine.Reception
import Fanout.Proofs.Sending.Returning
import Fanout.Proofs.Server.Starting
import Mathlib.Data.List.Infix

namespace Fanout.Serving

open Server (Echo series)

variable {s s' : Serving} {past : List Echo} {now : Option (Nat × Echo)} {a : Action}

/-- The echoes are those of the items that have been taken from the queue. -/
structure Echoing (s : Serving) (past : List Echo) (now : Option (Nat × Echo)) : Prop where
  reachable : Server.Reachable behaviour s.server
  echoes : s.server.Echoes past now
  heard : Heard s.server.feed
  sources : (series past now).map Echo.source <+: s.arrivals
  taken : (series past now).length = s.taken
  waits : ∀ {t : Nat} {e : Echo}, now = some (t, e) → s.echoing = some t

theorem fresh_of_start {config : ServerConfig} {port : UInt16} {autoReap : Bool}
    {bound : Except String SocketAddress} {server : Server} {address : SocketAddress}
    (h : Server.start { config } port autoReap bound = (server, .ok address)) :
    server.connections = [] ∧ server.feed = {} ∧ server.dropped = false ∧
      ∀ job ∈ server.tasks, job.isSending = false := by
  have hs := Server.starts_so { config } port autoReap bound
  rw [h] at hs
  cases hs with
  | opened hv hl hb =>
    subst hb
    have hopened : server = _ := (congrArg Prod.fst h).symm.trans (Server.start_opened hv hl rfl)
    subst hopened
    cases autoReap with
    | true =>
      have htasks : (({ config := config } : Server).opened address).spawnReaper.tasks =
          [.reaper false 0 none] := rfl
      exact ⟨rfl, rfl, rfl, by simp [htasks, Job.isSending]⟩
    | false => exact ⟨rfl, rfl, rfl, fun _ => nofun⟩

theorem echoing_started {config : ServerConfig} {port : UInt16}
    {bound : Except String SocketAddress} {server : Server} {address : SocketAddress}
    (echoes json : Bool)
    (h : Server.start { config } port config.autoReap bound = (server, .ok address)) :
    (ofServer server echoes json).Echoing [] none := by
  obtain ⟨hconns, hfeed, hdropped, htasks⟩ := fresh_of_start h
  have started : Server.Reachable behaviour server := by
    refine .step (.start port config.autoReap bound) (.new config) ?_
    simp [Server.step, Server.isAborted, h]
  have watched : Server.Reachable behaviour (ofServer server echoes json).server := by
    refine .step (.subscribe observer) started ?_
    simp [Server.step, Server.isAborted, hconns, hdropped, ofServer]
  refine ⟨watched, ⟨by simp [series], by simp, ?_, ?_, by simp, ?_⟩, ?_, ?_, rfl, by simp⟩
  · rintro payload p ⟨x, point, hx, -⟩
    simp [ofServer, hconns] at hx
  · intro c
    simp [ofServer, hconns, wireAt, series]
  · intro t job ht hj
    rw [htasks job (List.mem_of_getElem? ht)] at hj
    cases hj
  · exact ⟨by simp [ofServer, hfeed, Bus.subscribe], by simp [ofServer, hfeed, Bus.subscribe]⟩
  · exact List.nil_prefix

theorem arrivals_mono (h : s.server.feed.raised <+: s'.server.feed.raised) :
    s.arrivals <+: s'.arrivals :=
  h.filterMap arrival?

theorem Echoing.moves {b : Server.Action} (h : s.Echoing past now)
    (hs : s.server.step behaviour b = some s'.server)
    (hb : isForeign b = true ∨ ∃ r, b = .begin r ∧ r.isSending = false)
    (htaken : s'.taken = s.taken) (hechoing : s'.echoing = s.echoing) :
    ∃ past' now', s'.Echoing past' now' := by
  have hsound := Server.sound_of_reachable h.reachable
  have hreach : Server.Reachable behaviour s'.server := .step b h.reachable hs
  obtain ⟨hheard, hraised⟩ := h.heard.step hsound hs (hb.imp_right fun ⟨r, hr, _⟩ => ⟨r, hr⟩)
  have hsources := h.sources.trans (arrivals_mono hraised)
  by_cases hbusy : ∃ t e, now = some (t, e) ∧ b.task? = some t
  · obtain ⟨t, e, rfl, ht⟩ := hbusy
    obtain ⟨past', now', hechoes, hsame, hnow⟩ := h.echoes.work h.reachable hs ht
    refine ⟨past', now', hreach, hechoes, hheard, hsame ▸ hsources, ?_, ?_⟩
    · rw [htaken, ← h.taken]
      simpa using congrArg List.length hsame
    · intro u e' heq
      rw [hechoing, hnow u e' heq]
      exact h.waits rfl
  · refine ⟨past, now, hreach, h.echoes.turn h.reachable hs ⟨?_, ?_⟩, hheard, hsources,
      h.taken.trans htaken.symm, fun heq => hechoing.trans (h.waits heq)⟩
    · rintro r rfl
      rcases hb with hforeign | ⟨r', heq, hr⟩
      · cases hforeign
      · exact Server.Action.begin.inj heq ▸ hr
    · intro t job ht hjob
      refine Bool.eq_false_iff.mpr fun hj => hbusy ?_
      obtain ⟨e, he⟩ := h.echoes.alone hjob hj
      exact ⟨t, e, he, ht⟩

structure Loops (s s' : Serving) : Prop where
  server : s'.server = s.server ∨
    ∃ r, r.isSending = false ∧ s.server.step behaviour (.begin r) = some s'.server
  taken : s'.taken = s.taken
  echoing : s'.echoing = s.echoing

theorem begin?_eq_some {r : Server.Request} {p : Nat × Serving} (h : s.begin? r = some p) :
    ∃ server, s.server.step behaviour (.begin r) = some server ∧
      p = (s.server.tasks.length, { s with server }) := by
  obtain ⟨server, hs, h⟩ := Option.bind_eq_some_iff.mp h
  exact ⟨server, hs, (Option.some.inj h).symm⟩

theorem loops_begin {r : Server.Request} (hr : r.isSending = false) (point : Nat → ServingPoint)
    (h : ((s.begin? r).bind fun p => some { p.2 with point := point p.1 }) = some s') :
    s.Loops s' := by
  obtain ⟨p, hp, h⟩ := Option.bind_eq_some_iff.mp h
  obtain ⟨server, hs, rfl⟩ := begin?_eq_some hp
  obtain rfl := Option.some.inj h
  exact ⟨.inr ⟨r, hr, hs⟩, rfl, rfl⟩

theorem loops_rest {point : ServingPoint} {printed : List String}
    (h : some { s with point, printed } = some s') : s.Loops s' := by
  obtain rfl := Option.some.inj h
  exact ⟨.inl rfl, rfl, rfl⟩

theorem loops_stop (h : s.stop? = some s') : s.Loops s' :=
  loops_begin (r := .shutdown) rfl .stopping h

theorem loops_loop (h : s.loop? = some s') : s.Loops s' := by
  unfold loop? at h
  split at h
  · exact loops_begin (r := .accept _) rfl .accepting h
  · obtain ⟨job, -, h⟩ := Option.bind_eq_some_iff.mp h
    unfold afterAccept? at h
    split at h
    · exact loops_begin (r := .list) rfl .listing h
    · split at h
      · exact loops_rest h
      · exact loops_stop h
    · exact loops_rest h
    · cases h
  · obtain ⟨job, -, h⟩ := Option.bind_eq_some_iff.mp h
    unfold afterList? at h
    split at h
    · exact loops_rest h
    · cases h
  · obtain ⟨job, -, h⟩ := Option.bind_eq_some_iff.mp h
    unfold afterStop? at h
    split at h
    · exact loops_rest h
    · exact loops_rest h
    · exact loops_rest h
    · cases h
  · cases h

theorem loops_heed (h : s.heed? = some s') : s.Loops s' := by
  unfold heed? at h
  split at h
  · split at h
    · exact loops_stop h
    · exact loops_stop h
    · cases h
  · cases h

theorem Echoing.rests (h : s.Echoing past now) (hserver : s'.server = s.server)
    (htaken : s'.taken = s.taken) (hechoing : s'.echoing = s.echoing) : s'.Echoing past now where
  reachable := hserver ▸ h.reachable
  echoes := hserver ▸ h.echoes
  heard := hserver ▸ h.heard
  sources := by
    rw [arrivals, hserver]
    exact h.sources
  taken := h.taken.trans htaken.symm
  waits heq := hechoing.trans (h.waits heq)

theorem Echoing.loops (h : s.Echoing past now) (hl : s.Loops s') :
    ∃ past' now', s'.Echoing past' now' := by
  rcases hl.server with hserver | ⟨r, hr, hs⟩
  · exact ⟨past, now, h.rests hserver hl.taken hl.echoing⟩
  · exact h.moves hs (.inr ⟨r, rfl, hr⟩) hl.taken hl.echoing

theorem Echoing.take_up (h : s.Echoing past none) {host : String} {payload : List UInt8}
    {server : Server} (hitem : s.received[s.taken]? = some (host, payload))
    (hs : s.server.step behaviour (.begin (.sendTo host payload)) = some server) :
    ∃ origin, Echoing
      { s with server, taken := s.taken + 1, echoing := some s.server.tasks.length } past
      (some (s.server.tasks.length, { origin, payload })) := by
  have hsound := Server.sound_of_reachable h.reachable
  have hl := (Server.keeps_ledger behaviour).logged h.reachable
  rw [h.heard.received_eq hl, List.getElem?_map] at hitem
  obtain ⟨⟨origin, payload⟩, hat, heq⟩ := Option.map_eq_some_iff.mp hitem
  obtain ⟨rfl, rfl⟩ := Prod.mk.inj heq
  obtain ⟨x, hx⟩ := arrival_known hl (List.mem_of_getElem? hat)
  obtain ⟨hheard, hraised⟩ := h.heard.step hsound hs (.inr ⟨_, rfl⟩)
  have hechoes := h.echoes.begin_echo h.reachable hx hs
  have htaken : (past.map Echo.source).length = s.taken := by
    simpa [series] using h.taken
  have hsources : past.map Echo.source ++ [(origin, payload)] <+: s.arrivals := by
    obtain ⟨hlt, heq⟩ := List.getElem?_eq_some_iff.mp (htaken ▸ hat)
    have hnext := List.concat_get_prefix (by simpa [series] using h.sources) hlt
    rwa [List.get_eq_getElem, heq] at hnext
  refine ⟨origin, .step _ h.reachable hs, hechoes, hheard, ?_, ?_, ?_⟩
  · simpa [series, Echo.source] using hsources.trans (arrivals_mono hraised)
  · simpa [series] using htaken
  · intro t e heq
    obtain ⟨rfl, -⟩ := Prod.mk.inj (Option.some.inj heq)
    rfl

theorem Echoing.echo (h : s.Echoing past now) (hs : s.echo? = some s') :
    ∃ past' now', s'.Echoing past' now' := by
  unfold echo? at hs
  split at hs
  · split at hs
    · rename_i hidle
      obtain ⟨⟨host, payload⟩, hitem, hs⟩ := Option.bind_eq_some_iff.mp hs
      obtain ⟨p, hp, hs⟩ := Option.bind_eq_some_iff.mp hs
      obtain ⟨server, hbegin, rfl⟩ := begin?_eq_some hp
      obtain rfl := Option.some.inj hs
      cases now with
      | some p => exact absurd ((h.waits (e := p.2) rfl).symm.trans hidle) nofun
      | none =>
        obtain ⟨origin, htakes⟩ := h.take_up hitem hbegin
        exact ⟨_, _, htakes⟩
    · rename_i t hwaits
      obtain ⟨job, ht, hs⟩ := Option.bind_eq_some_iff.mp hs
      split at hs
      · rename_i hover
        obtain rfl := Option.some.inj hs
        cases now with
        | none => exact ⟨past, none, h.reachable, h.echoes, h.heard, h.sources, h.taken, nofun⟩
        | some p =>
          obtain rfl : p.1 = t := Option.some.inj ((h.waits (e := p.2) rfl).symm.trans hwaits)
          obtain rfl := Option.some.inj ((h.echoes.busy (e := p.2) rfl).symm.trans ht)
          cases hover
      · cases hs
  · cases hs

theorem Echoing.step (h : s.Echoing past now) (hs : s.step a = some s') :
    ∃ past' now', s'.Echoing past' now' := by
  cases a with
  | server b =>
    simp only [Serving.step, Option.ite_none_right_eq_some, Option.map_eq_some_iff] at hs
    obtain ⟨hb, server, hs, rfl⟩ := hs
    refine h.moves ?_ (.inl hb) rfl rfl
    exact hs
  | ask =>
    obtain rfl := Option.some.inj hs
    exact ⟨past, now, h.rests rfl rfl rfl⟩
  | loop => exact h.loops (loops_loop hs)
  | heed => exact h.loops (loops_heed hs)
  | echo => exact h.echo hs

theorem echoing_of_reachable (h : Reachable s) : ∃ past now, s.Echoing past now := by
  induction h with
  | started echoes json h => exact ⟨_, _, echoing_started echoes json h⟩
  | step a _ hs ih =>
    obtain ⟨past, now, h⟩ := ih
    exact h.step hs

def steps? : List Action → Serving → Option Serving
  | [], s => some s
  | a :: as, s => (s.step a).bind (steps? as)

theorem reachable_of_steps (as : List Action) (h : Reachable s) (hs : steps? as s = some s') :
    Reachable s' := by
  induction as generalizing s with
  | nil => exact Option.some.inj hs ▸ h
  | cons a as ih =>
    obtain ⟨s₁, h₁, hs⟩ := Option.bind_eq_some_iff.mp hs
    exact ih (.step a h h₁) hs

def echoServer : Serving :=
  ofServer (Server.start { config := { autoReap := false } } 65123 false (.ok Server.address)).1
    true false

theorem reachable_echoServer : Reachable echoServer :=
  @Reachable.started { autoReap := false } 65123 (.ok Server.address) _ Server.address true false rfl

def welcome (caller : Stream) (accept list : Nat) : List Action :=
  [.loop, .server (.connect 0 caller), .server (.acceptPeer accept), .server (.resume accept),
    .loop, .server (.resume list), .loop]

/-- The second of two callers writes, and one byte of its payload goes out to some caller. -/
def exchange (second : Stream) (receiver : Nat) : List Action :=
  welcome Server.visitor 0 1 ++ welcome second 2 3 ++
    [.server (.on 1 (.arrive [104, 105])), .server (.on 1 .look), .server (.on 1 .read), .echo,
      .server (.resume 4), .server (.on receiver (.obtainWriter 1)),
      .server (.on receiver (.write 1 1))]

def stranger : Stream where
  peer := { ip := .v4 10 0 0 2, port := 9 }

def Exchanged (s : Serving) (wires : List (List UInt8)) : Prop :=
  s.echoes = true ∧ s.server.connections.map Connection.wire = wires ∧ s.payloadsFrom 0 = [] ∧
    s.payloadsFrom 1 = [[104, 105]] ∧
    (s.server.tasks.all fun job => !(job matches .done (.failed _))) = true

instance (s : Serving) (wires : List (List UInt8)) : Decidable (s.Exchanged wires) :=
  inferInstanceAs (Decidable (_ ∧ _))

theorem Exchanged.unfailed {wires : List (List UInt8)} (h : s.Exchanged wires) :
    ¬ s.server.SendFailed := by
  rintro ⟨t, e, ht, -⟩
  have hjob := List.all_eq_true.mp h.2.2.2.2 _ (List.mem_of_getElem? ht)
  cases hjob

theorem Exchanged.wires {first second : List UInt8} (h : s.Exchanged [first, second]) :
    ∃ x y, s.server.connections = [x, y] ∧ x.wire = first ∧ y.wire = second := by
  obtain ⟨x, xs, hlist, rfl, hrest⟩ := List.map_eq_cons_iff.mp h.2.1
  obtain ⟨y, ys, rfl, rfl, hnone⟩ := List.map_eq_cons_iff.mp hrest
  obtain rfl := List.map_eq_nil_iff.mp hnone
  exact ⟨x, y, hlist, rfl, rfl⟩

theorem mem_past_of_dropLast {e : Echo} (he : e ∈ (series past now).dropLast) : e ∈ past := by
  cases now with
  | none => exact List.mem_of_mem_dropLast (by simpa [series] using he)
  | some p => simpa [series] using he

theorem Echoing.bytes_le (h : s.Echoing past now) (hfailed : ¬ s.server.SendFailed)
    (chosen : Nat → Bool) :
    ((series past now).filter fun e => chosen e.origin).flatMap (Echo.bytes s.server) <+:
      ((s.arrivals.filter fun p => chosen p.1).map Prod.snd).flatten := by
  refine (h.echoes.bytes_le_payloads hfailed fun e => chosen e.origin).trans ?_
  have hsources := (h.sources.filter fun p => chosen p.1).flatMap Prod.snd
  rw [List.filter_map, List.flatMap_map] at hsources
  rwa [← List.flatMap_def]

theorem echo_returns_payloads_to_their_host (reachable : Reachable s) :
    ∃ es : List Echo, es.length = s.taken ∧ es.map Echo.source <+: s.arrivals ∧
      (∀ e ∈ es, e.bytes s.server <+: e.payload ∧
        ∀ c, e.target? = some c → s.server.hostOf c = s.server.hostOf e.origin) ∧
      (∀ (c : Nat) (x : Connection), s.server.connections[c]? = some x →
        x.wire = (es.filter fun e => e.target? = some c).flatMap (Echo.bytes s.server) ∧
          (s.payloadsFrom c).flatten = x.stream.arrived.take x.taken) ∧
      (¬ s.server.SendFailed →
        (∀ e ∈ es.dropLast, ∃ p, e.call = some p ∧ s.server.Sent e.payload p) ∧
        (∀ host, (es.filter fun e => e.target?.any fun c => s.server.hostOf c == host).flatMap
            (Echo.bytes s.server) <+: (s.payloadsOf host).flatten) ∧
        ∀ (c : Nat) (x : Connection), s.server.connections[c]? = some x →
          (∀ (d : Nat) (y : Connection), s.server.connections[d]? = some y →
            s.server.hostOf d = s.server.hostOf c → d = c) →
          x.wire <+: (s.payloadsFrom c).flatten) := by
  obtain ⟨past, now, h⟩ := echoing_of_reachable reachable
  have wire {c : Nat} {x : Connection} (hx : s.server.connections[c]? = some x) :
      x.wire = ((series past now).filter fun e => e.target? = some c).flatMap
        (Echo.bytes s.server) := by
    rw [← h.echoes.wire c, wireAt_eq hx]
  refine ⟨series past now, h.taken, h.sources, fun e he => ?_, fun c x hx => ?_, fun hfailed => ?_⟩
  · exact ⟨h.echoes.bytes_le he, fun c => h.echoes.target_host he⟩
  · exact ⟨wire hx, payloadsFrom_flatten h.reachable hx⟩
  · refine ⟨fun e he => (h.echoes.sent hfailed (mem_past_of_dropLast he)).1, fun host => ?_,
      fun c x hx lone => ?_⟩
    · rw [h.echoes.bytes_at_host host]
      exact h.bytes_le hfailed fun c => s.server.hostOf c == host
    · rw [wire hx, h.echoes.bytes_at_lone lone]
      exact h.bytes_le hfailed (· == c)

theorem stranger_gets_its_payload :
    ∃ s x, Reachable s ∧ s.echoes = true ∧ ¬ s.server.SendFailed ∧
      s.server.connections[1]? = some x ∧ x.wire = [104] ∧ s.payloadsFrom 1 = [[104, 105]] ∧
      x.wire <+: (s.payloadsFrom 1).flatten := by
  have runs : (steps? (exchange stranger 1) echoServer).any (fun s =>
      s.Exchanged [[], [104]] ∧ s.server.hostOf 0 ≠ s.server.hostOf 1) = true := by
    decide +kernel
  obtain ⟨s, hrun, hs⟩ := (Option.any_eq_true _ _).mp runs
  obtain ⟨hexchanged, hhosts⟩ := of_decide_eq_true hs
  have reachable := reachable_of_steps _ reachable_echoServer hrun
  obtain ⟨x, y, hlist, -, hwire⟩ := hexchanged.wires
  obtain ⟨hechoes, -, -, hpayloads, -⟩ := id hexchanged
  obtain ⟨es, -, -, -, -, unfailed⟩ := echo_returns_payloads_to_their_host reachable
  obtain ⟨-, -, lone⟩ := unfailed hexchanged.unfailed
  have hy : s.server.connections[1]? = some y := by simp [hlist]
  refine ⟨s, y, reachable, hechoes, hexchanged.unfailed, hy, hwire, hpayloads, lone 1 y hy ?_⟩
  intro d z hz hhost
  match d with
  | 0 => exact absurd hhost hhosts
  | 1 => rfl
  | d + 2 => simp [hlist] at hz

theorem neighbour_gets_the_payload :
    (¬ ∀ s, Reachable s → s.echoes = true → ¬ s.server.SendFailed → ∀ (c : Nat) (x : Connection),
      s.server.connections[c]? = some x → x.wire <+: (s.payloadsFrom c).flatten) ∧
      ¬ ∀ s, Reachable s → s.echoes = true → ∀ (c : Nat) (x : Connection),
        s.server.connections[c]? = some x → s.payloadsFrom c = [] → x.wire = [] := by
  have runs : (steps? (exchange (Server.visitorOn 10) 0) echoServer).any (fun s =>
      decide (s.Exchanged [[104], []])) = true := by
    decide +kernel
  obtain ⟨s, hrun, hs⟩ := (Option.any_eq_true _ _).mp runs
  have hexchanged := of_decide_eq_true hs
  have reachable := reachable_of_steps _ reachable_echoServer hrun
  obtain ⟨x, y, hlist, hwire, -⟩ := hexchanged.wires
  obtain ⟨hechoes, -, hnothing, -, -⟩ := id hexchanged
  have hx : s.server.connections[0]? = some x := by simp [hlist]
  constructor
  · intro claim
    have wrong := claim s reachable hechoes hexchanged.unfailed 0 x hx
    rw [hwire, hnothing] at wrong
    exact absurd wrong (by decide)
  · intro claim
    have wrong := claim s reachable hechoes 0 x hx hnothing
    rw [hwire] at wrong
    cases wrong

end Fanout.Serving
