import Fanout.Proofs.Connection.Run
import Fanout.Proofs.Connection.Telling

namespace Fanout

inductive Phase.Leads : Phase → Phase → Prop
  | listen : Leads .created .listening
  | close : Leads .created .disconnected
  | disconnect : Leads .listening .disconnected

def Signal.isDisconnection : Signal → Bool
  | .message _ => false
  | .disconnected _ => true

namespace Connection

variable {σ : Type}

/-- The same sink, which also notes what it is told and in which phase it finds the connection. -/
def noted (tell : Sink σ) : Sink (σ × List (Phase × Signal)) := fun c signal s =>
  (((tell c signal s.1).1, s.2 ++ [(c.phase, signal)]), (tell c signal s.1).2)

theorem leads_disconnected (phase : Phase) :
    phase = .disconnected ∨ phase.Leads .disconnected := by
  cases phase with
  | created => exact .inr .close
  | listening => exact .inr .disconnect
  | disconnected => exact .inl rfl

theorem Turn.leads {c c' : Connection} {a : Action} (ht : Turn c a c') :
    c'.phase = c.phase ∨ c.phase.Leads c'.phase := by
  cases ht with
  | strand hp | listen _ hp => exact .inr (hp ▸ .listen)
  | finishClose | quit | unwind | hangUp => exact (leads_disconnected c.phase).imp_left Eq.symm
  | _ => exact .inl rfl

theorem tellAll_noted (tell : Sink σ) (told : List (Connection × Signal))
    (s : σ × List (Phase × Signal)) :
    (tellAll (noted tell) told s).2 = s.2 ++ told.map fun p => (p.1.phase, p.2) := by
  induction told generalizing s with
  | nil => simp [tellAll]
  | cons p told ih => simp [tellAll, ih, noted]

structure Noted (c : Connection) (told : List (Phase × Signal)) : Prop where
  signals : told.map Prod.snd = c.signals
  phases : ∀ entry ∈ told, entry.2.isDisconnection = true → entry.1 = .disconnected

theorem noted_step {tell : Sink σ} {c c' : Connection} {a : Action}
    {s s' : σ × List (Phase × Signal)} (hn : Noted c s.2)
    (h : c.step (noted tell) a s = some (c', s')) : Noted c' s'.2 := by
  obtain ⟨told, rfl, hsignals, hfaces⟩ := reports_step h
  rw [tellAll_noted]
  refine ⟨by simp [hn.signals, hsignals, Function.comp_def], ?_⟩
  intro entry hentry hd
  rcases List.mem_append.mp hentry with hold | hnew
  · exact hn.phases entry hold hd
  · obtain ⟨p, hp, rfl⟩ := List.mem_map.mp hnew
    refine (hfaces p hp).2.trans ?_
    cases hs : p.2 with
    | message => simp [hs, Signal.isDisconnection] at hd
    | disconnected => rfl

theorem noted_run {tell : Sink σ} {p q : Connection × σ × List (Phase × Signal)}
    (hp : Noted p.1 p.2.2) (h : Run (noted tell) p q) : Noted q.1 q.2.2 := by
  induction h with
  | refl => exact hp
  | tail _ hn ih =>
    obtain ⟨a, ha⟩ := hn
    exact noted_step ih ha

theorem ofStream_fresh {stream : Stream} {settings : Settings} {time : Timestamp} {c : Connection}
    (h : ofStream stream settings time = .ok c) :
    c = { stream, settings, connectedAt := time } := by
  unfold ofStream at h
  split at h
  · exact absurd h (by simp)
  · exact (Except.ok.inj h).symm

theorem count_disconnections {phase : Phase} {signals : List Signal} (h : Spoken phase signals) :
    signals.countP Signal.isDisconnection = if phase = .disconnected then 1 else 0 := by
  have hm (payloads : List (List UInt8)) :
      (payloads.map Signal.message).countP Signal.isDisconnection = 0 := by
    simp [List.countP_eq_zero, Signal.isDisconnection]
  obtain ⟨payloads, ⟨hp, rfl⟩ | ⟨hp, reason, rfl⟩⟩ := h
  · rw [if_neg hp, hm]
  · rw [if_pos hp, List.countP_append, hm]
    rfl

theorem Sound.disconnections {c : Connection} (h : c.Sound) :
    c.signals.countP Signal.isDisconnection + c.isConnected.toNat = 1 := by
  rw [count_disconnections h.spoken]
  by_cases hp : c.phase = .disconnected <;> simp [Connection.isConnected, hp]

theorem run_disconnects_once (tell : Sink σ) {stream : Stream} {settings : Settings}
    {time : Timestamp} {c₀ c : Connection} {s₀ s : σ} {told : List (Phase × Signal)}
    (opened : ofStream stream settings time = .ok c₀)
    (run : Run (noted tell) (c₀, s₀, []) (c, s, told)) :
    c₀.phase = .created ∧
      (∀ c' s', Next (noted tell) (c, s, told) (c', s') →
        c'.phase = c.phase ∨ c.phase.Leads c'.phase) ∧
      told.countP (fun entry => entry.2.isDisconnection) =
        (if c.phase = .disconnected then 1 else 0) ∧
      (∀ entry ∈ told, entry.2.isDisconnection = true → entry.1 = .disconnected) ∧
      ∃ (payloads : List (List UInt8)) (farewell : Option Reason),
        told.map Prod.snd = payloads.map .message ++ farewell.toList.map .disconnected := by
  have hsound : c.Sound := run.sound (sound_ofStream opened)
  have hnoted : Noted c told :=
    noted_run (p := (c₀, s₀, [])) ⟨by simp [ofStream_fresh opened], by simp⟩ run
  refine ⟨by simp [ofStream_fresh opened], ?_, ?_, hnoted.phases, ?_⟩
  · intro c' s' hn
    obtain ⟨a, ht⟩ := hn.turn
    exact ht.leads
  · rw [← count_disconnections hsound.spoken, ← hnoted.signals, List.countP_map]
    rfl
  · rw [hnoted.signals]
    obtain ⟨payloads, ⟨-, hs⟩ | ⟨-, reason, hs⟩⟩ := hsound.spoken
    · exact ⟨payloads, none, by simpa using hs⟩
    · exact ⟨payloads, some reason, by simpa using hs⟩

def raising : Sink Unit := fun _ signal s =>
  (s, if signal.isDisconnection then .returned else .raised)

theorem raised_message_disconnects_once :
    ∃ (c : Connection) (told : List (Phase × Signal)),
      Run (noted raising) (greeted [104, 105], (), []) (c, (), told) ∧
        c.phase = .disconnected ∧ told.countP (fun entry => entry.2.isDisconnection) = 1 := by
  have run : Run (noted raising) (greeted [104, 105], (), []) _ :=
    run_of_steps
      [.listen, .look, .read, .close, .obtainClosing 1, .halt 1 .halted, .finishClose 1] rfl
  have once := (run_disconnects_once raising (ofStream_greeted [104, 105]) run).2.2.1
  exact ⟨_, _, run, rfl, once⟩

end Connection

end Fanout
