import Fanout.Proofs.Connection.Outward
import Fanout.Proofs.Connection.Waiting

namespace Fanout

def Outcome.ending : Outcome → TaskEnd
  | .returned => .finished
  | .raised => .crashed

def Outcome.unwinding : Outcome → TaskEnd
  | .returned => .crashed
  | .raised => .aborted

namespace Connection

variable {σ : Type} {tell : Sink σ} {x x' : Connection} {a : Action} {s s' : σ}

/-- One step of a receive task by the answers of the callbacks that it runs, and how it leaves the
task. -/
inductive Receives (tell : Sink σ) (s : σ) (x' : Connection) : σ → Prop
  | waits (h : x'.receiver.hasEnded = false) : Receives tell s x' s
  | hears {y : Connection} {payload : List UInt8}
      (returned : (tell y (.message payload) s).2 = .returned) (h : x'.receiver = .idle) :
      Receives tell s x' (tell y (.message payload) s).1
  | ends {y : Connection} {reason : Reason}
      (h : x'.receiver = .ended (tell y (.disconnected reason) s).2.ending) :
      Receives tell s x' (tell y (.disconnected reason) s).1
  | unwinds {y z : Connection} {payload : List UInt8}
      (raised : (tell y (.message payload) s).2 = .raised)
      (h : x'.receiver =
        .ended (tell z (.disconnected .aborted) (tell y (.message payload) s).1).2.unwinding) :
      Receives tell s x' (tell z (.disconnected .aborted) (tell y (.message payload) s).1).1

theorem disconnect_tells (tell : Sink σ) (hp : x.phase ≠ .disconnected) (reason : Reason) (s : σ) :
    ∃ y, (x.disconnect tell reason s).2 = tell y (.disconnected reason) s := by
  rw [disconnect, if_neg hp]
  exact ⟨_, rfl⟩

theorem receives_endReceive (tell : Sink σ) (hp : x.phase ≠ .disconnected) (reason : Reason)
    (s : σ) :
    Receives tell s (x.endReceive tell reason s).1 (x.endReceive tell reason s).2 := by
  obtain ⟨y, htell⟩ := disconnect_tells (x := { x with readHalf := .gone }) tell hp reason s
  unfold endReceive
  simp only [htell]
  refine .ends ?_
  cases (tell y (.disconnected reason) s).2 <;> rfl

theorem receives_deliver (tell : Sink σ) (hp : x.phase ≠ .disconnected) (payload : List UInt8)
    (s : σ) :
    Receives tell s (x.deliver tell payload s).1 (x.deliver tell payload s).2 := by
  cases h : (tell (x.taking payload) (.message payload) s).2 with
  | returned =>
    rw [deliver_returned h]
    exact .hears h rfl
  | raised =>
    obtain ⟨z, htell⟩ := disconnect_tells (x := { x.taking payload with readHalf := .gone }) tell
      hp .aborted (tell (x.taking payload) (.message payload) s).1
    rw [deliver_raised h]
    unfold unwindReceive
    simp only [htell]
    refine .unwinds h ?_
    cases (tell z (.disconnected .aborted)
      (tell (x.taking payload) (.message payload) s).1).2 <;> rfl

theorem receives_of_step (h : x.Sound) (hs : x.step tell a s = some (x', s'))
    (ha : a.isReceive = true) : Receives tell s x' s' := by
  have running (hr : x.receiver = .idle ∨ x.receiver = .reading) : x.phase ≠ .disconnected := by
    rw [h.listening_of_active hr]
    simp
  cases a with
  | look =>
    simp only [step, look] at hs
    split at hs
    · rename_i hr
      split at hs
      · obtain ⟨rfl, rfl⟩ := Prod.mk.inj (Option.some.inj hs)
        exact receives_endReceive tell (running (.inl hr)) _ s
      · obtain ⟨rfl, rfl⟩ := Prod.mk.inj (Option.some.inj hs)
        exact .waits rfl
    · cases hs
  | read =>
    simp only [step, read] at hs
    split at hs
    · rename_i hr
      have hp := running (.inr hr)
      split at hs
      · obtain ⟨rfl, rfl⟩ := Prod.mk.inj (Option.some.inj hs)
        exact receives_deliver tell hp _ s
      · split at hs
        · obtain ⟨rfl, rfl⟩ := Prod.mk.inj (Option.some.inj hs)
          exact receives_endReceive tell hp _ s
        · obtain ⟨rfl, rfl⟩ := Prod.mk.inj (Option.some.inj hs)
          exact receives_endReceive tell hp _ s
        · obtain ⟨rfl, rfl⟩ := Prod.mk.inj (Option.some.inj hs)
          exact .waits rfl
    · cases hs
  | _ => cases ha

theorem Turn.ended (ht : Turn x a x') (ha : a.isReceive = true)
    (he : x'.receiver.hasEnded = true) :
    (x.receiver = .idle ∨ x.receiver = .reading) ∧
      x' = { x with
        taken := x'.taken
        readHalf := .gone
        phase := .disconnected
        receiver := x'.receiver
        signals := x'.signals } := by
  cases ht with
  | quit how hr => exact ⟨.inl hr, rfl⟩
  | unwind how hr | hangUp _ how hr => exact ⟨.inr hr, rfl⟩
  | look | deliver | wait => exact absurd he nofun
  | _ => exact absurd ha nofun

def hungUp (x : Connection) (taken : Nat) : Connection :=
  (endReceive (fun _ _ s => (s, .returned)) { x with taken } .peerClosed ()).1

theorem outward_hungUp (x : Connection) (taken : Nat) :
    (x.hungUp taken).outward =
      ({ x with
        taken
        readHalf := .gone
        phase := .disconnected
        receiver := .ended .finished } : Connection).outward := by
  by_cases hp : x.phase = .disconnected <;>
    simp [hungUp, endReceive, disconnect, outward, hp]

theorem Turn.outward_eq_hungUp (ht : Turn x a x') (ha : a.isReceive = true) {how : TaskEnd}
    (he : x'.receiver = .ended how) (hne : how ≠ .aborted) :
    x'.outward = (x.hungUp x'.taken).outward := by
  obtain ⟨-, heq⟩ := ht.ended ha (by rw [he]; rfl)
  rw [outward_hungUp, heq, he]
  cases how with
  | finished | crashed => rfl
  | aborted => exact absurd rfl hne

end Connection

end Fanout
