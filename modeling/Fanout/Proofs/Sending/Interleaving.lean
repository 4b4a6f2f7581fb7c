import Fanout.Proofs.Connection.Wire
import Fanout.Proofs.Sending.Quiet

namespace Fanout

/-- A connection goes from one state to another, on its own or in the hands of a server or a client.
-/
inductive Passes : Connection → Connection → Prop
  | alone {σ : Type} {tell : Sink σ} {c c' : Connection} {s s' : σ} (h : c.Reachable)
      (run : Connection.Run tell (c, s) (c', s')) : Passes c c'
  | served {behaviour : Behaviour} {s s' : Server} {i : Nat} {c c' : Connection}
      (h : Server.Reachable behaviour s) (run : Server.Run behaviour s s')
      (hc : s.connections[i]? = some c) (hc' : s'.connections[i]? = some c') : Passes c c'
  | owned {behaviour : Behaviour} {s s' : Client} {i : Nat} {c c' : Connection}
      (h : Client.Reachable behaviour s) (run : Client.Run behaviour s s')
      (hc : s.connections[i]? = some c) (hc' : s'.connections[i]? = some c') : Passes c c'

variable {c c' : Connection}

theorem Passes.path (h : Passes c c') : c.Reachable ∧ c.Path c' := by
  cases h with
  | alone h run => exact ⟨h, run.path⟩
  | served h run hc hc' =>
    obtain ⟨x, hx, hpath⟩ := (run.flows (Server.sound_of_reachable h)).onward hc
    obtain rfl := Option.some.inj (hx.symm.trans hc')
    exact ⟨Server.connection_reachable h hc, hpath⟩
  | owned h run hc hc' =>
    obtain ⟨x, hx, hpath⟩ := run.flows.onward hc
    obtain rfl := Option.some.inj (hx.symm.trans hc')
    exact ⟨Client.connection_reachable h hc, hpath⟩

namespace Connection

variable {a : Action} {σ : Type}

theorem Turn.writers (ht : Turn c a c') : c.writers <+: c'.writers := by
  cases ht with
  | turnAway | sendNothing | startWriting => exact List.prefix_append _ _
  | _ => exact List.prefix_rfl

theorem Path.writers (h : Path c c') : c.writers <+: c'.writers := by
  induction h with
  | refl => exact List.prefix_rfl
  | tail _ hn ih =>
    obtain ⟨a, ht⟩ := hn.turn
    exact ih.trans ht.writers

theorem Sound.wire_turn (h : c.Sound) (hw : c.writeHalf = false) (ht : Turn c a c') :
    c'.wire = c.wire := by
  cases ht with
  | write hi | finishWriting hi => exact absurd hi (h.silent hw)
  | _ => rfl

theorem Path.wire (h : Path c c') (hs : c.Sound) (hw : c.writeHalf = false) :
    c'.wire = c.wire := by
  suffices c'.Sound ∧ c'.writeHalf = false ∧ c'.wire = c.wire from this.2.2
  induction h with
  | refl => exact ⟨hs, hw, rfl⟩
  | tail _ hn ih =>
    obtain ⟨hsound, hhalf, hwire⟩ := ih
    obtain ⟨a, ht⟩ := hn.turn
    exact ⟨hsound.turn ht, ht.writeHalf_mono hhalf, (hsound.wire_turn hhalf ht).trans hwire⟩

end Connection

open Connection (SendsOnly)

theorem sends_do_not_interleave (h : Passes c c') :
    (∃ segments : List (List UInt8), c'.wire = segments.flatten ∧
      List.Forall₂ (fun i segment => ∃ call, c'.calls[i]? = some call ∧ call.Puts segment)
        c'.writers segments) ∧
      c'.writers.Nodup ∧
      (∀ i, i ∈ c'.writers ↔ ∃ call, c'.calls[i]? = some call ∧ call.hadWriter = true) ∧
      c.writers <+: c'.writers ∧
      (∀ (i : Nat) (p : ClosePoint), c.calls[i]? = some (.close p) → p.isHalted = true →
        c'.wire = c.wire) ∧
      (∀ (σ : Type) (tell : Sink σ) (a : Connection.Action) (s s' : σ)
        (x : Connection), a.isSending = true → c'.step tell a s = some (x, s') →
          s' = s ∧ SendsOnly c' x) ∧
      (∀ (behaviour : Behaviour) (a : Server.Action) (s s' : Server),
        Server.Reachable behaviour s → a.isSending s = true → s.step behaviour a = some s' →
          s'.feed = s.feed ∧ List.Forall₂ SendsOnly s.connections s'.connections) ∧
      ∀ (behaviour : Behaviour) (a : Client.Action) (s s' : Client), a.isSending s = true →
        s.step behaviour a = some s' →
          s'.feed = s.feed ∧ List.Forall₂ SendsOnly s.connections s'.connections := by
  obtain ⟨hreach, hpath⟩ := h.path
  have hwired : c'.Wired := Connection.wired_of_reachable (hreach.path hpath)
  have hsound : c.Sound := Connection.sound_of_reachable hreach
  refine ⟨hwired.segments, hwired.nodup, hwired.mem_iff, hpath.writers, ?_, ?_, ?_, ?_⟩
  · intro i p hi hp
    exact hpath.wire hsound (hsound.halted hi hp).2
  · intro σ tell a s s' x ha hs
    exact Connection.sending_step ha hs
  · intro behaviour a s s' hs ha hstep
    exact Server.sending_step (Server.sound_of_reachable hs) ha hstep
  · intro behaviour a s s' ha hstep
    exact Client.sending_step ha hstep

theorem rivals_do_not_interleave :
    ∃ (s : Server) (c : Connection), Server.Reachable Server.quietObservers s ∧
      s.connections[0]? = some c ∧ c.wire = [1, 2, 7, 8] ∧ c.writers = [1, 2] ∧
      (∃ segments : List (List UInt8), c.wire = segments.flatten ∧
        List.Forall₂ (fun i segment => ∃ call, c.calls[i]? = some call ∧ call.Puts segment)
          c.writers segments) := by
  have reach : Server.Reachable Server.quietObservers _ :=
    Server.reachable_of_steps
      (Server.opening ++ [.resume 0, .begin (.broadcast [1, 2, 3]), .resume 1,
        .begin (.send 0 [7, 8]), .on 0 (.obtainWriter 1), .on 0 (.write 1 2), .begin (.close 0),
        .on 0 (.obtainClosing 3), .on 0 (.writeExpired 1), .on 0 (.obtainWriter 2),
        .on 0 (.write 2 1), .on 0 (.write 2 1), .on 0 (.halt 3 .halted)])
      (.new {}) rfl
  exact ⟨_, _, reach, rfl, rfl, rfl, (sends_do_not_interleave (.served (i := 0) reach .refl rfl rfl)).1⟩

end Fanout
