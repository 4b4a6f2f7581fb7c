import Fanout.Proofs.Connection.Lifecycle
import Fanout.Proofs.Connection.Outward
import Fanout.Proofs.Server.Run
import Mathlib.Data.List.Basic

namespace Fanout

def ServerFeed.outward (f : ServerFeed) : ServerFeed :=
  { f with raised := [] }

namespace Server

/-- What the users of a server and its observers can tell of it from now on. -/
def outward (s : Server) : Server :=
  { s with
    connections := s.connections.map Connection.outward
    feed := s.feed.outward }

theorem tasks_outward (s : Server) : s.outward.tasks = s.tasks := rfl

theorem registry_outward (s : Server) : s.outward.registry = s.registry := rfl

theorem listeners_outward (s : Server) : s.outward.listeners = s.listeners := rfl

theorem listening_outward (s : Server) : s.outward.listening = s.listening := rfl

theorem reaper_outward (s : Server) : s.outward.reaper = s.reaper := rfl

theorem outward_at (s : Server) (c : Nat) :
    s.outward.connections[c]? = s.connections[c]?.map Connection.outward :=
  List.getElem?_map

theorem isConnected_outward (s : Server) (c : Nat) : s.outward.isConnected c = s.isConnected c := by
  simp only [isConnected, outward_at]
  cases s.connections[c]? <;> rfl

theorem hostOf_outward (s : Server) (c : Nat) : s.outward.hostOf c = s.hostOf c := by
  simp only [hostOf, outward_at]
  cases s.connections[c]? <;> rfl

theorem isAborted_outward (s : Server) : s.outward.isAborted = s.isAborted := by
  simp only [isAborted, outward, List.any_map]
  congr 1
  funext x
  change (x.receiver.outward == .ended .aborted) = (x.receiver == .ended .aborted)
  cases x.receiver with
  | ended how => cases how <;> rfl
  | _ => rfl

theorem infos_outward (s : Server) (registry : List Nat) :
    (registry.filterMap fun c => s.outward.connections[c]?).map Connection.info =
      (registry.filterMap fun c => s.connections[c]?).map Connection.info := by
  simp only [List.map_filterMap]
  refine List.filterMap_congr fun c _ => ?_
  rw [outward_at]
  cases s.connections[c]? <;> rfl

theorem closeFailure_outward (s : Server) (place : Nat) (first : Option ServerError)
    (failure : Failure) :
    s.outward.closeFailure place first failure = s.closeFailure place first failure := by
  cases failure with
  | none => rfl
  | some e =>
    have hpeer : (s.outward.registry[place]?.bind fun c => s.outward.connections[c]?) =
        (s.registry[place]?.bind fun c => s.connections[c]?).map Connection.outward := by
      simp only [outward_at, Option.map_bind]
      rfl
    simp only [closeFailure, hpeer]
    cases s.registry[place]?.bind fun c => s.connections[c]? <;> rfl

theorem outward_setConnection (s : Server) (c : Nat) (x : Connection) :
    s.outward.setConnection c x.outward = (s.setConnection c x).outward := by
  simp only [setConnection, outward, List.map_set]

theorem outward_beginSend (s : Server) (c : Nat) (payload : List UInt8) :
    s.outward.beginSend c payload = (s.beginSend c payload).map (Prod.map id outward) := by
  simp only [beginSend, outward_at]
  cases s.connections[c]? with
  | none => rfl
  | some x =>
    have hset := outward_setConnection s c (x.beginSend payload)
    exact congrArg (fun s => some (x.calls.length, s)) hset

theorem outward_beginClose (s : Server) (c : Nat) :
    s.outward.beginClose c = (s.beginClose c).map (Prod.map id outward) := by
  simp only [beginClose, outward_at]
  cases s.connections[c]? with
  | none => rfl
  | some x =>
    have hset := outward_setConnection s c x.beginClose
    exact congrArg (fun s => some (x.calls.length, s)) hset

theorem outward_acceptPeer (s : Server) (t : Nat) :
    s.outward.acceptPeer t = (s.acceptPeer t).map outward := by
  simp only [acceptPeer, tasks_outward, listeners_outward]
  split
  · rename_i l _
    cases s.listeners[l]? with
    | none => rfl
    | some listener =>
      simp only [Option.bind_eq_bind, Option.bind_some]
      split
      · rfl
      · rename_i stream pending _
        cases opened : Connection.ofStream stream s.config.settings (.ofMillis s.now) with
        | error reason =>
          simp only [changeListener, outward, opened]
          rfl
        | ok x =>
          have hfresh : x.outward = x := by rw [Connection.ofStream_fresh opened]; rfl
          have hconns : (s.connections ++ [x]).map Connection.outward =
              s.connections.map Connection.outward ++ [x] := by
            rw [List.map_append, List.map_singleton, hfresh]
          simp only [changeListener, outward, opened, join, setTask, List.length_map,
            Option.map_some, hconns]
  · rfl

theorem outward_acceptClosed (s : Server) (t : Nat) :
    s.outward.acceptClosed t = (s.acceptClosed t).map outward := by
  simp only [acceptClosed, outward]
  split
  · simp only [apply_ite (Option.map outward), Option.map_some, Option.map_none]
    rfl
  · rfl

theorem outward_acceptExpired (s : Server) (t : Nat) :
    s.outward.acceptExpired t = (s.acceptExpired t).map outward := by
  simp only [acceptExpired, tasks_outward, listeners_outward]
  split
  · rename_i secs deadline l _
    cases s.listeners[l]? with
    | none => rfl
    | some listener =>
      simp only [Option.bind_eq_bind, Option.bind_some, apply_ite (Option.map outward),
        Option.map_some, Option.map_none]
      rfl
  · rfl

theorem outward_acceptFailed (s : Server) (t : Nat) (reason : String) :
    s.outward.acceptFailed t reason = (s.acceptFailed t reason).map outward := by
  simp only [acceptFailed, outward]
  split <;> rfl

theorem outward_refuse (s : Server) (t c : Nat) (e : ServerError) :
    s.outward.refuse t c e = (s.refuse t c e).map outward := by
  have hleave : s.outward.leave t = (s.leave t).outward := rfl
  simp only [refuse, hleave, outward_beginClose]
  cases (s.leave t).beginClose c <;> rfl

theorem outward_register (s : Server) (t l c : Nat) :
    s.outward.register t l c = (s.register t l c).map outward := by
  have hcount : s.outward.countOn = s.countOn.outward := rfl
  have hclosed : s.countOn.outward.isClosed l = s.countOn.isClosed l := rfl
  simp only [register, hcount, hclosed]
  split
  · exact outward_refuse s.countOn t c .listenerClosed
  · rw [outward_at]
    cases s.countOn.connections[c]? with
    | none => rfl
    | some x =>
      simp only [Option.map_some, Option.bind_eq_bind, Option.bind_some,
        Connection.outward_listen, outward_setConnection]
      cases x.listen.2 with
      | none => rfl
      | some e => exact outward_refuse _ t c (.accept e.message)

theorem outward_broadcastFrom (s : Server) (t : Nat) (payload : List UInt8) (place : Nat) :
    s.outward.broadcastFrom t payload place = (s.broadcastFrom t payload place).map outward := by
  simp only [broadcastFrom, outward_beginSend]
  rw [registry_outward]
  cases s.registry[place]? with
  | none => rfl
  | some c =>
    dsimp only
    cases s.beginSend c payload <;> rfl

theorem outward_sendToFirst (s : Server) (t : Nat) (address : String) (payload : List UInt8) :
    s.outward.sendToFirst t address payload = (s.sendToFirst t address payload).map outward := by
  simp only [sendToFirst, registry_outward, hostOf_outward, outward_beginSend]
  cases s.registry.find? fun c => s.hostOf c == address with
  | none => rfl
  | some c =>
    dsimp only
    cases s.beginSend c payload <;> rfl

theorem sendReply_outward (s : Server) (c : Nat) (failure : Failure) :
    s.outward.sendReply c failure = s.sendReply c failure := by
  cases failure with
  | none => rfl
  | some e => simp only [sendReply, hostOf_outward]

theorem outward_sweep (s : Server) :
    s.outward.sweep = s.sweep.map (Prod.map id outward) := by
  simp only [sweep, registry_outward, isConnected_outward, outward_beginClose]
  cases s.registry.findIdx? fun c => !s.isConnected c with
  | none => rfl
  | some place =>
    simp only [Option.bind_eq_bind]
    cases s.registry[place]? with
    | none => rfl
    | some c =>
      simp only [Option.bind_some]
      cases s.beginClose c <;> rfl

theorem outward_reapFrom (s : Server) (t evicted : Nat) :
    s.outward.reapFrom t evicted = (s.reapFrom t evicted).map outward := by
  simp only [reapFrom, outward_sweep]
  cases s.sweep with
  | none => rfl
  | some p =>
    obtain ⟨closing, s⟩ := p
    cases closing <;> rfl

theorem outward_reaperFrom (s : Server) (t : Nat) (cancelled : Bool) (next evicted : Nat) :
    s.outward.reaperFrom t cancelled next evicted =
      (s.reaperFrom t cancelled next evicted).map outward := by
  simp only [reaperFrom, outward_sweep]
  cases s.sweep with
  | none => rfl
  | some p =>
    obtain ⟨closing, s⟩ := p
    cases closing <;> rfl

theorem outward_tick (s : Server) (t : Nat) (cancelled : Bool) (next : Nat) :
    s.outward.tick t cancelled next = (s.tick t cancelled next).map outward := by
  simp only [tick, apply_ite (Option.map outward), Option.map_some, Option.map_none]
  rfl

theorem outward_cancelReaper (s : Server) (r : Nat) :
    s.outward.cancelReaper r = (s.cancelReaper r).outward := by
  simp only [cancelReaper, tasks_outward]
  split <;> rfl

theorem outward_unlisten (s : Server) : s.outward.unlisten = s.unlisten.outward := by
  simp only [unlisten, listening_outward]
  cases s.listening <;> rfl

theorem outward_beginShutdown (s : Server) : s.outward.beginShutdown = s.beginShutdown.outward := by
  obtain ⟨s₁, job, hb, heq⟩ := begins_shutdown (s := s)
  obtain ⟨s₂, job', hb', heq'⟩ := begins_shutdown (s := s.outward)
  rw [heq, heq']
  cases hb with
  | @stopReaper r hr =>
    cases hb' with
    | stopReaper hr' =>
      obtain rfl := Option.some.inj (hr.symm.trans hr')
      rw [outward_unlisten, outward_cancelReaper]
      rfl
    | closeAll hr' => exact absurd (hr.symm.trans hr') nofun
  | closeAll hr =>
    cases hb' with
    | stopReaper hr' => exact absurd (hr.symm.trans hr') nofun
    | closeAll hr' =>
      rw [outward_unlisten]
      rfl

theorem outward_closeFrom (s : Server) (t : Nat) (listener : Option Nat)
    (first : Option ServerError) (place : Nat) :
    s.outward.closeFrom t listener first place =
      (s.closeFrom t listener first place).map outward := by
  simp only [closeFrom, registry_outward, outward_beginClose]
  cases s.registry[place]? with
  | none => cases listener <;> cases first <;> rfl
  | some c =>
    dsimp only
    cases s.beginClose c <;> rfl

theorem outward_afterCall (s : Server) (t : Nat) (failure : Failure) (job : Job) :
    s.outward.afterCall t failure job = (s.afterCall t failure job).map outward := by
  cases job with
  | broadcast payload sending =>
    cases sending with
    | none => rfl
    | some p =>
      cases failure with
      | none => exact outward_broadcastFrom s t payload (p.1 + 1)
      | some e =>
        simp only [afterCall, registry_outward, sendReply_outward]
        cases s.registry[p.1]? <;> rfl
  | sendTo address payload sending =>
    cases sending with
    | none => rfl
    | some p =>
      simp only [afterCall, sendReply_outward]
      rfl
  | reap evicted closing =>
    cases closing with
    | none => rfl
    | some p => exact outward_reapFrom (s.evict p.1) t (evicted + 1)
  | reaper cancelled next sweep =>
    obtain _ | ⟨evicted, _ | ⟨place, _⟩⟩ := sweep
    · rfl
    · rfl
    · exact outward_reaperFrom (s.evict place) t cancelled next (evicted + 1)
  | closeAll listener first closing =>
    cases closing with
    | none => rfl
    | some p =>
      simp only [afterCall, closeFailure_outward]
      exact outward_closeFrom s t listener _ (p.1 + 1)
  | _ => rfl

theorem outward_proceed (s : Server) (t : Nat) (job : Job) :
    s.outward.proceed t job = (s.proceed t job).map outward := by
  have granted {p : Prop} [Decidable p] {x y : Option Server} (h : x = y.map outward) :
      (if p then x else none) = (if p then y else none).map outward := by
    split
    · exact h
    · rfl
  cases job with
  | register l c => exact granted (outward_register s t l c)
  | broadcast payload sending =>
    cases sending with
    | none => exact granted (outward_broadcastFrom s t payload 0)
    | some p => rfl
  | sendTo address payload sending =>
    cases sending with
    | none => exact granted (outward_sendToFirst s t address payload)
    | some p => rfl
  | reap evicted closing =>
    cases closing with
    | none => exact granted (outward_reapFrom s t evicted)
    | some p => rfl
  | reaper cancelled next sweep =>
    match sweep with
    | none => exact outward_tick s t cancelled next
    | some (evicted, none) => exact granted (outward_reaperFrom s t cancelled next evicted)
    | some (_, some _) => rfl
  | stopReaper listener r =>
    simp only [proceed, tasks_outward]
    split <;> rfl
  | closeAll listener failure closing =>
    cases closing with
    | none => exact granted (outward_closeFrom s t listener failure 0)
    | some p => rfl
  | count => exact granted rfl
  | list =>
    refine granted ?_
    simp only [registry_outward, infos_outward]
    rfl
  | _ => rfl

theorem outward_resume (s : Server) (t : Nat) :
    s.outward.resume t = (s.resume t).map outward := by
  simp only [resume, tasks_outward, Option.bind_eq_bind]
  cases s.tasks[t]? with
  | none => rfl
  | some job =>
    have hawaited : s.outward.awaited? job = s.awaited? job := rfl
    simp only [Option.bind_some, hawaited, outward_at]
    cases s.awaited? job with
    | none => exact outward_proceed s t job
    | some p =>
      obtain ⟨c, call⟩ := p
      dsimp only
      cases s.connections[c]? with
      | none => rfl
      | some x =>
        have hending : x.outward.ending? call = x.ending? call := rfl
        simp only [Option.map_some, Option.bind_some, hending]
        cases x.ending? call with
        | none => rfl
        | some ending =>
          cases ending with
          | crashed => rfl
          | returned failure => exact outward_afterCall s t failure job

theorem outward_start (s : Server) (port : UInt16) (autoReap : Bool)
    (bound : Except String SocketAddress) :
    (s.outward.start port autoReap bound).1 = (s.start port autoReap bound).1.outward := by
  have hconfig : s.outward.config = s.config := rfl
  have hlistening : s.outward.isListening = s.isListening := rfl
  simp only [start, hconfig, hlistening]
  cases s.config.validate with
  | error e => rfl
  | ok _ =>
    cases s.isListening with
    | true => rfl
    | false =>
      cases bound with
      | error reason => rfl
      | ok address =>
        cases autoReap with
        | false => rfl
        | true =>
          simp only [Bool.false_eq_true, if_false, if_true, reaper_outward]
          cases s.reaper with
          | none => rfl
          | some previous => exact outward_cancelReaper (s.opened address).spawnReaper previous

theorem outward_begin (s : Server) (r : Request) :
    s.outward.begin r = (s.begin r).map outward := by
  have hgiven (c : Nat) : s.outward.isGiven c = s.isGiven c := rfl
  cases r with
  | accept secs =>
    simp only [begin, beginAccept, listening_outward]
    cases s.listening <;> rfl
  | send c payload =>
    simp only [begin, hgiven, outward_beginSend]
    split
    · cases s.beginSend c payload <;> rfl
    · rfl
  | close c =>
    simp only [begin, hgiven, outward_beginClose]
    split
    · cases s.beginClose c <;> rfl
    · rfl
  | listen c =>
    simp only [begin, hgiven, outward_at]
    split
    · cases s.connections[c]? with
      | none => rfl
      | some x =>
        simp only [Option.map_some, Option.bind_eq_bind, Option.bind_some,
          Connection.outward_listen, outward_setConnection]
        rfl
    · rfl
  | shutdown => exact congrArg some (outward_beginShutdown s)
  | _ => rfl

theorem outward_drop (s : Server) : s.outward.drop = s.drop.outward := by
  have hdrop : s.outward.dropListener = s.dropListener.outward := by
    simp only [dropListener, listening_outward]
    cases s.listening <;> rfl
  rw [drop_eq, drop_eq, reaper_outward, hdrop]
  cases s.reaper with
  | none => rfl
  | some r =>
    dsimp only
    rw [outward_cancelReaper]
    rfl

theorem blind_tell (behaviour : Behaviour) (c : Nat) :
    Connection.Blind (ServerFeed.tell behaviour c) ServerFeed.outward := by
  have same {f g : ServerFeed} (h : f.outward = g.outward) : ∃ raised, g = { f with raised } := by
    refine ⟨g.raised, ?_⟩
    cases f
    cases g
    simpa [ServerFeed.outward] using And.intro (Eq.symm (congrArg ServerFeed.bus h))
      (Eq.symm (congrArg ServerFeed.live h))
  refine ⟨fun {x y f g} signal hhost h => ?_, fun {x y f g} signal hhost h => ?_⟩
  · obtain ⟨raised, rfl⟩ := same h
    simp only [ServerFeed.tell, hhost]
    cases signal <;> rfl
  · obtain ⟨raised, rfl⟩ := same h
    simp only [ServerFeed.tell, hhost]
    cases signal <;> rfl

theorem actOn_alike {s t : Server} (h : s.outward = t.outward) (behaviour : Behaviour) (c : Nat)
    (a : Connection.Action) :
    (s.actOn behaviour c a).map outward = (t.actOn behaviour c a).map outward := by
  have hat :
      s.connections[c]?.map Connection.outward = t.connections[c]?.map Connection.outward := by
    rw [← outward_at, ← outward_at, h]
  have hfeed : s.feed.outward = t.feed.outward := congrArg feed h
  refine map_bind_congr hat fun x y hxy => ?_
  refine map_bind_congr (Connection.step_alike (blind_tell behaviour c) hxy hfeed a) ?_
  intro p q hpq
  obtain ⟨hx, hf⟩ := Prod.mk.inj hpq
  have hset : (s.setConnection c p.1).outward = (t.setConnection c q.1).outward := by
    rw [← outward_setConnection, ← outward_setConnection, h, hx]
  refine congrArg some ?_
  change { (s.setConnection c p.1).outward with feed := p.2.outward } =
    { (t.setConnection c q.1).outward with feed := q.2.outward }
  rw [hset, hf]

theorem step_alike {s t : Server} (h : s.outward = t.outward) (behaviour : Behaviour) (a : Action) :
    (s.step behaviour a).map outward = (t.step behaviour a).map outward := by
  have same {f : Server → Option Server} (hf : ∀ s, f s.outward = (f s).map outward) :
      (f s).map outward = (f t).map outward := by
    rw [← hf, ← hf, h]
  have owned {f : Server → Option Server} (hf : ∀ s, f s.outward = (f s).map outward) :
      ((if s.dropped then none else f s).map outward) =
        (if t.dropped then none else f t).map outward := by
    have hdropped : s.outward.dropped = t.outward.dropped := by rw [h]
    change s.dropped = t.dropped at hdropped
    rw [hdropped]
    split
    · rfl
    · exact same hf
  have haborted : s.isAborted = t.isAborted := by
    rw [← isAborted_outward, h, isAborted_outward]
  unfold step
  rw [haborted]
  split
  · rfl
  · cases a with
    | start port autoReap bound =>
      exact owned (f := fun s => some (s.start port autoReap bound).1)
        fun s => congrArg some (outward_start s port autoReap bound)
    | subscribe o =>
      exact owned
        (f := fun s => some { s with feed := { s.feed with bus := s.feed.bus.subscribe o } })
        fun _ => rfl
    | begin r => exact owned (f := (·.begin r)) fun s => outward_begin s r
    | drop => exact owned (f := fun s => some s.drop) fun s => congrArg some (outward_drop s)
    | connect l stream =>
      refine same (f := fun s =>
        if l < s.listeners.length then
          some (s.changeListener l fun l => { l with pending := l.pending ++ [stream] })
        else none) fun s => ?_
      simp only [apply_ite (Option.map outward), Option.map_some, Option.map_none]
      rfl
    | acceptPeer t => exact same (f := (·.acceptPeer t)) fun s => outward_acceptPeer s t
    | acceptClosed t => exact same (f := (·.acceptClosed t)) fun s => outward_acceptClosed s t
    | acceptExpired t => exact same (f := (·.acceptExpired t)) fun s => outward_acceptExpired s t
    | acceptFailed t reason =>
      exact same (f := (·.acceptFailed t reason)) fun s => outward_acceptFailed s t reason
    | resume t => exact same (f := (·.resume t)) fun s => outward_resume s t
    | on c act =>
      dsimp only
      split
      · rfl
      · exact actOn_alike h behaviour c act
    | pass ms => exact same (f := fun s => some { s with now := s.now + ms }) fun _ => rfl

theorem steps_alike {s t : Server} (h : s.outward = t.outward) (behaviour : Behaviour)
    (as : List Action) :
    (steps? behaviour as s).map outward = (steps? behaviour as t).map outward := by
  induction as generalizing s t with
  | nil => exact congrArg some h
  | cons a as ih =>
    exact map_bind_congr (step_alike h behaviour a) fun _ _ h => ih h

end Server

end Fanout
