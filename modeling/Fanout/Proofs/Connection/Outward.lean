import Fanout.Proofs.Connection.Telling

namespace Fanout

theorem map_bind_congr {α β γ δ : Type} {φ : α → β} {ψ : γ → δ} {p q : Option α}
    {f g : α → Option γ} (h : p.map φ = q.map φ)
    (hfg : ∀ a b, φ a = φ b → (f a).map ψ = (g b).map ψ) :
    (p.bind f).map ψ = (q.bind g).map ψ := by
  cases p with
  | none =>
    cases q with
    | none => rfl
    | some b => exact absurd h nofun
  | some a =>
    cases q with
    | none => exact absurd h nofun
    | some b => exact hfg a b (Option.some.inj h)

def Receiver.outward : Receiver → Receiver
  | .ended .crashed => .ended .finished
  | receiver => receiver

namespace Receiver

theorem hasEnded_outward (receiver : Receiver) : receiver.outward.hasEnded = receiver.hasEnded := by
  cases receiver with
  | ended how => cases how <;> rfl
  | _ => rfl

theorem outward_eq_iff {receiver state : Receiver} (h : state.hasEnded = false) :
    receiver.outward = state ↔ receiver = state := by
  cases receiver with
  | ended how => cases how <;> cases state <;> simp_all [outward, hasEnded]
  | _ => rfl

theorem eq_iff_of_outward {receiver receiver' state : Receiver}
    (h : receiver.outward = receiver'.outward) (hs : state.hasEnded = false) :
    receiver = state ↔ receiver' = state := by
  rw [← outward_eq_iff hs, h, outward_eq_iff hs]

end Receiver

namespace Connection

/-- What the others can tell of a connection: neither how its receive task came to its end, nor what
it has raised so far. -/
def outward (x : Connection) : Connection :=
  { x with receiver := x.receiver.outward, signals := [] }

variable {σ τ : Type} {tell : Sink σ} {φ : σ → τ} {x y : Connection} {s t : σ}

theorem outward_listen (x : Connection) :
    x.outward.listen = (x.listen.1.outward, x.listen.2) := by
  unfold listen startListen
  simp only [outward]
  by_cases hc : x.cancelled = true
  · simp [hc, addCall]
  · cases hp : x.phase with
    | listening | disconnected => simp [hc, hp, addCall]
    | created =>
      by_cases hr : x.readHalf = .kept <;> simp [hc, hr, addCall, Receiver.outward]

theorem outward_obtainWriter (x : Connection) (i : Nat) :
    x.outward.obtainWriter i = (x.obtainWriter i).map outward := by
  simp only [obtainWriter, outward]
  split
  · simp only [apply_ite (Option.map outward), Option.map_some, Option.map_none]
    rfl
  · rfl

theorem outward_write (x : Connection) (i n : Nat) :
    x.outward.write i n = (x.write i n).map outward := by
  simp only [write, outward]
  split
  · simp only [apply_ite (Option.map outward), Option.map_some, Option.map_none]
    rfl
  · rfl

theorem outward_abandonWrite (x : Connection) (i : Nat) (e : ConnectionError) :
    x.outward.abandonWrite i e = (x.abandonWrite i e).map outward := by
  simp only [abandonWrite, outward]
  split <;> rfl

theorem outward_obtainClosing (x : Connection) (i : Nat) :
    x.outward.obtainClosing i = (x.obtainClosing i).map outward := by
  simp only [obtainClosing, outward]
  split
  · simp only [apply_ite (Option.map outward), Option.map_some, Option.map_none]
    rfl
  · rfl

theorem outward_halt (x : Connection) (i : Nat) (how : Halt) :
    x.outward.halt i how = (x.halt i how).map outward := by
  simp only [halt, outward]
  split
  · simp only [apply_ite (Option.map outward), Option.map_some, Option.map_none]
    rfl
  · rfl

theorem outward_arrive (x : Connection) (bytes : List UInt8) :
    x.outward.arrive bytes = (x.arrive bytes).map outward := by
  simp only [arrive, apply_ite (Option.map outward), Option.map_some, Option.map_none]
  rfl

theorem outward_finish (x : Connection) (how : StreamEnd) :
    x.outward.finish how = (x.finish how).map outward := by
  simp only [finish, apply_ite (Option.map outward), Option.map_some, Option.map_none]
  rfl

/-- A sink that knows a connection by its host alone, and whose answers and changes do not depend on
what `φ` leaves out of its state. -/
structure Blind (tell : Sink σ) (φ : σ → τ) : Prop where
  answers : ∀ {x y : Connection} {s t : σ} (signal : Signal), x.host = y.host → φ s = φ t →
    (tell x signal s).2 = (tell y signal t).2
  keeps : ∀ {x y : Connection} {s t : σ} (signal : Signal), x.host = y.host → φ s = φ t →
    φ (tell x signal s).1 = φ (tell y signal t).1

def Alike (φ : σ → τ) (p q : Connection × σ) : Prop :=
  p.1.outward = q.1.outward ∧ φ p.2 = φ q.2

theorem exists_of_outward (h : x.outward = y.outward) :
    ∃ receiver signals, receiver.outward = x.receiver.outward ∧
      y = { x with receiver, signals } := by
  refine ⟨y.receiver, y.signals, (congrArg receiver h).symm, ?_⟩
  cases x
  cases y
  simp only [outward, Connection.mk.injEq] at h ⊢
  simp [h]

theorem host_of_outward (h : x.outward = y.outward) : x.host = y.host := by
  obtain ⟨receiver, signals, -, rfl⟩ := exists_of_outward h
  rfl

theorem outward_receiver (h : x.outward = y.outward) (receiver : Receiver) :
    ({ x with receiver } : Connection).outward = ({ y with receiver } : Connection).outward := by
  obtain ⟨r, signals, -, rfl⟩ := exists_of_outward h
  rfl

theorem outward_readHalf (h : x.outward = y.outward) (readHalf : ReadHalf) :
    ({ x with readHalf } : Connection).outward = ({ y with readHalf } : Connection).outward := by
  obtain ⟨r, signals, hr, rfl⟩ := exists_of_outward h
  simp only [outward, hr]

theorem outward_setCall (h : x.outward = y.outward) (i : Nat) (call : Call) :
    ({ x.setCall i call with closing := x.closing.leave i } : Connection).outward =
      ({ y.setCall i call with closing := y.closing.leave i } : Connection).outward := by
  obtain ⟨r, signals, hr, rfl⟩ := exists_of_outward h
  simp only [outward, setCall, hr]

theorem map_of_alike {p q : Connection × σ} (h : Alike φ p q) :
    (some p).map (Prod.map outward φ) = (some q).map (Prod.map outward φ) :=
  congrArg some (Prod.ext h.1 h.2)

theorem quiet_alike (f : Connection → Option Connection)
    (hf : ∀ x, f x.outward = (f x).map outward) (hx : x.outward = y.outward) (hs : φ s = φ t) :
    ((f x).map (·, s)).map (Prod.map outward φ) = ((f y).map (·, t)).map (Prod.map outward φ) := by
  have hmap : (f x).map outward = (f y).map outward := by rw [← hf, ← hf, hx]
  have hpair (o : Option Connection) (s : σ) :
      (o.map (·, s)).map (Prod.map outward φ) = (o.map outward).map (·, φ s) := by
    cases o <;> rfl
  rw [hpair, hpair, hmap, hs]

section

variable (hb : Blind tell φ) (hx : x.outward = y.outward) (hs : φ s = φ t)

include hb hx hs

theorem disconnect_alike (reason : Reason) :
    (x.disconnect tell reason s).1.outward = (y.disconnect tell reason t).1.outward ∧
      φ (x.disconnect tell reason s).2.1 = φ (y.disconnect tell reason t).2.1 ∧
      (x.disconnect tell reason s).2.2 = (y.disconnect tell reason t).2.2 := by
  obtain ⟨receiver, signals, hr, rfl⟩ := exists_of_outward hx
  by_cases hp : x.phase = .disconnected
  · rw [disconnect, disconnect, if_pos hp, if_pos hp]
    exact ⟨hx, hs, rfl⟩
  · rw [disconnect, disconnect, if_neg hp, if_neg hp]
    refine ⟨?_, hb.keeps _ rfl hs, hb.answers _ rfl hs⟩
    simp only [outward, hr]

theorem endReceive_alike (reason : Reason) :
    Alike φ (x.endReceive tell reason s) (y.endReceive tell reason t) := by
  obtain ⟨hx', hs', hout⟩ := disconnect_alike hb (outward_readHalf hx .gone) hs reason
  simp only [endReceive, hout]
  exact ⟨outward_receiver hx' _, hs'⟩

theorem unwindReceive_alike : Alike φ (x.unwindReceive tell s) (y.unwindReceive tell t) := by
  obtain ⟨hx', hs', hout⟩ := disconnect_alike hb (outward_readHalf hx .gone) hs .aborted
  simp only [unwindReceive, hout]
  exact ⟨outward_receiver hx' _, hs'⟩

theorem deliver_alike (payload : List UInt8) :
    Alike φ (x.deliver tell payload s) (y.deliver tell payload t) := by
  have htaking : (x.taking payload).outward = (y.taking payload).outward := by
    obtain ⟨receiver, signals, hr, rfl⟩ := exists_of_outward hx
    simp only [outward, taking, hr]
  have hhost := host_of_outward htaking
  have hs' := hb.keeps (.message payload) hhost hs
  cases hout : (tell (y.taking payload) (.message payload) t).2 with
  | returned =>
    rw [deliver_returned hout, deliver_returned ((hb.answers _ hhost hs).trans hout)]
    exact ⟨outward_receiver htaking .idle, hs'⟩
  | raised =>
    rw [deliver_raised hout, deliver_raised ((hb.answers _ hhost hs).trans hout)]
    exact unwindReceive_alike hb htaking hs'

theorem finishClose_alike (i : Nat) :
    (x.finishClose tell i s).map (Prod.map outward φ) =
      (y.finishClose tell i t).map (Prod.map outward φ) := by
  obtain ⟨receiver, signals, hr, rfl⟩ := exists_of_outward hx
  have hended : receiver.hasEnded = x.receiver.hasEnded := by
    rw [← receiver.hasEnded_outward, hr, x.receiver.hasEnded_outward]
  simp only [finishClose, hended]
  split
  · split
    · rfl
    · obtain ⟨hx', hs', hout⟩ := disconnect_alike hb
        (outward_readHalf hx (if x.readHalf = .kept then .gone else x.readHalf)) hs .closedLocally
      simp only [hout]
      exact map_of_alike ⟨outward_setCall hx' i _, hs'⟩
  · rfl

theorem look_alike :
    (x.look tell s).map (Prod.map outward φ) = (y.look tell t).map (Prod.map outward φ) := by
  obtain ⟨receiver, signals, hr, rfl⟩ := exists_of_outward hx
  have hidle : receiver = .idle ↔ x.receiver = .idle := Receiver.eq_iff_of_outward hr rfl
  simp only [look, hidle]
  split
  · split
    · exact map_of_alike (endReceive_alike hb hx hs .closedLocally)
    · exact map_of_alike ⟨outward_receiver hx .reading, hs⟩
  · rfl

theorem read_alike :
    (x.read tell s).map (Prod.map outward φ) = (y.read tell t).map (Prod.map outward φ) := by
  obtain ⟨receiver, signals, hr, rfl⟩ := exists_of_outward hx
  have hreading : receiver = .reading ↔ x.receiver = .reading := Receiver.eq_iff_of_outward hr rfl
  have hpayload : ({ x with receiver, signals } : Connection).nextPayload = x.nextPayload := rfl
  simp only [read, hreading, hpayload]
  split
  · split
    · exact map_of_alike (deliver_alike hb hx hs _)
    · split
      · exact map_of_alike (endReceive_alike hb hx hs .peerClosed)
      · exact map_of_alike (endReceive_alike hb hx hs _)
      · exact map_of_alike ⟨outward_receiver hx .idle, hs⟩
  · rfl

theorem step_alike (a : Action) :
    (x.step tell a s).map (Prod.map outward φ) = (y.step tell a t).map (Prod.map outward φ) := by
  cases a with
  | listen =>
    refine map_of_alike ⟨?_, hs⟩
    exact congrArg Prod.fst ((outward_listen x).symm.trans (hx ▸ outward_listen y))
  | send payload => exact map_of_alike ⟨congrArg (beginSend · payload) hx, hs⟩
  | close => exact map_of_alike ⟨congrArg beginClose hx, hs⟩
  | obtainWriter i => exact quiet_alike (·.obtainWriter i) (outward_obtainWriter · i) hx hs
  | write i n => exact quiet_alike (·.write i n) (outward_write · i n) hx hs
  | failWrite i reason =>
    exact quiet_alike (·.abandonWrite i (.io reason)) (outward_abandonWrite · i _) hx hs
  | writeExpired i =>
    exact quiet_alike (·.abandonWrite i .writeTimeout) (outward_abandonWrite · i _) hx hs
  | obtainClosing i => exact quiet_alike (·.obtainClosing i) (outward_obtainClosing · i) hx hs
  | halt i how => exact quiet_alike (·.halt i how) (outward_halt · i how) hx hs
  | finishClose i => exact finishClose_alike hb hx hs i
  | look => exact look_alike hb hx hs
  | read => exact read_alike hb hx hs
  | arrive bytes => exact quiet_alike (·.arrive bytes) (outward_arrive · bytes) hx hs
  | finish how => exact quiet_alike (·.finish how) (outward_finish · how) hx hs

end

end Connection

end Fanout
