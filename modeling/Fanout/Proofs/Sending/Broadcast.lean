import Fanout.Proofs.Sending.Attempt
import Fanout.Proofs.Server.Conservation

namespace Fanout.Server

open Connection (SendsOnly)

variable {behaviour : Behaviour} {s s' s₁ s₂ : Server} {t : Nat} {job job' : Job} {a : Action}
  {payload : List UInt8} {registry : List Nat} {calls sent : List (Nat × Nat)}

/-- How far a broadcast has come along the registry: it waits for the last of its sends, and all
before that one have written everything. -/
inductive Spreads (registry : List Nat) (payload : List UInt8) :
    List (Nat × Nat) → Server → Job → Prop
  | queued {s : Server} (hreg : s.registry = registry) :
      Spreads registry payload [] s (.broadcast payload none)
  | sending {s : Server} {sent : List (Nat × Nat)} {c call : Nat} (hreg : s.registry = registry)
      (attempted : sent.map Prod.fst ++ [c] <+: registry) (hsent : ∀ p ∈ sent, s.Sent payload p)
      (hcall : s.Sends payload (c, call)) :
      Spreads registry payload (sent ++ [(c, call)]) s
        (.broadcast payload (some (sent.length, call)))

inductive Reaches (s : Server) (registry : List Nat) (payload : List UInt8)
    (calls : List (Nat × Nat)) : Reply → Prop
  | all (attempted : calls.map Prod.fst = registry) (hsent : ∀ p ∈ calls, s.Sent payload p) :
      Reaches s registry payload calls .ok
  | failed {sent : List (Nat × Nat)} {c call : Nat} {e : ConnectionError}
      (hcalls : calls = sent ++ [(c, call)]) (hsent : ∀ p ∈ sent, s.Sent payload p)
      (hr : s.Returns c call (some e)) :
      Reaches s registry payload calls (.failed (.send (s.hostOf c) e))

namespace Spreads

theorem registry_eq (h : Spreads registry payload calls s job) : s.registry = registry := by
  cases h with
  | queued hreg | sending hreg => exact hreg

theorem attempted (h : Spreads registry payload calls s job) :
    calls.map Prod.fst <+: registry := by
  cases h with
  | queued => exact List.nil_prefix
  | sending _ attempted => simpa using attempted

theorem sends (h : Spreads registry payload calls s job) : ∀ p ∈ calls, s.Sends payload p := by
  cases h with
  | queued => exact nofun
  | sending _ _ hsent hcall =>
    intro p hp
    rcases List.mem_append.mp hp with hp | hp
    · exact (hsent p hp).sends
    · exact List.mem_singleton.mp hp ▸ hcall

theorem sends_awaited {c call : Nat} (h : Spreads registry payload calls s job)
    (ha : s.awaited? job = some (c, call)) : s.Sends payload (c, call) := by
  cases h with
  | queued => cases ha
  | sending hreg attempted _ hcall =>
    obtain ⟨d, hp, heq⟩ := Option.map_eq_some_iff.mp ha
    obtain ⟨rfl, rfl⟩ := Prod.mk.inj heq
    obtain rfl := eq_of_attempted attempted (hreg ▸ hp)
    exact hcall

theorem unhindered (h : Spreads registry payload calls s job) (ht : s.tasks[t]? = some job) :
    s.Unhindered t := by
  intro other c call hu ha
  obtain rfl := Option.some.inj (ht.symm.trans hu)
  exact (h.sends_awaited ha).fleeting

theorem isSending (h : Spreads registry payload calls s job) : job.isSending = true := by
  cases h with
  | queued | sending => rfl

theorem standing (h : Spreads registry payload calls s job) : job.standing ≠ .outside := by
  cases h with
  | queued | sending => exact nofun

theorem other (h : Spreads registry payload calls s job) (ht : Turn behaviour s a s')
    (hreg : s'.registry = s.registry) (hkept : job.Kept job') :
    Spreads registry payload calls s' job' := by
  cases h with
  | queued hreg' =>
    obtain rfl := hkept.eq rfl
    exact .queued (hreg.trans hreg')
  | sending hreg' attempted hsent hcall =>
    obtain rfl := hkept.eq rfl
    exact .sending (hreg.trans hreg') attempted (fun p hp => (hsent p hp).turn ht) (hcall.turn ht)

theorem arrives {payload' : List UInt8} {sending : Option (Nat × Nat)} {place : Nat}
    (h : Spreads registry payload calls s (.broadcast payload' sending))
    (hreach : Reachable behaviour s) (ha : s.Arrives t sending place none) :
    payload' = payload ∧ place = calls.length ∧ ∀ p ∈ calls, s.Sent payload p := by
  cases h with
  | queued =>
    cases ha
    exact ⟨rfl, rfl, nofun⟩
  | sending hreg attempted hsent hcall =>
    cases ha with
    | next hp hr =>
      obtain rfl := eq_of_attempted attempted (hreg ▸ hp)
      refine ⟨rfl, by simp, ?_⟩
      intro p hp
      rcases List.mem_append.mp hp with hp | hp
      · exact hsent p hp
      · exact List.mem_singleton.mp hp ▸ hcall.sent hreach hr

theorem advance (h : Spreads registry payload calls s job) (hreach : Reachable behaviour s)
    (ht : s.tasks[t]? = some job) (hw : Work s t job s₁ job') :
    Spreads registry payload (calls ++ begun s (s₁.moveTask t job job')) (s₁.moveTask t job job')
        job' ∨
      s₁ = s ∧ ∃ reply, job' = .done reply ∧ Reaches s registry payload calls reply := by
  have hturn : Turn behaviour s (.resume t) (s₁.moveTask t job job') :=
    .work rfl ⟨job, s₁, job', ht, hw, rfl⟩
  have hreg := h.registry_eq
  cases hw with
  | broadcastNext ha hp hx =>
    obtain ⟨rfl, rfl, hsent⟩ := h.arrives hreach ha
    refine .inl ?_
    rw [begun_set hx rfl (List.length_append ..)]
    exact .sending hreg (attempted_next h.attempted (hreg ▸ hp))
      (fun p hp => (hsent p hp).turn hturn) (sends_begun hx _)
  | broadcastEnd ha hp =>
    obtain ⟨rfl, rfl, hsent⟩ := h.arrives hreach ha
    exact .inr ⟨rfl, _, rfl, .all (attempted_all h.attempted (hreg ▸ hp)) hsent⟩
  | broadcastFailed hp hr =>
    cases h with
    | sending _ attempted hsent hcall =>
      obtain rfl := eq_of_attempted attempted (hreg ▸ hp)
      exact .inr ⟨rfl, _, rfl, .failed rfl hsent hr⟩
  | crash ha hc => exact absurd hc (h.sends_awaited ha).uncrashed
  | sweepNext sweeper | sweepEnd sweeper => cases sweeper <;> cases h
  | _ => cases h

end Spreads

theorem spreads_of_tenure (hreach : Reachable behaviour s)
    (waits : s.tasks[t]? = some (.broadcast payload none)) (h : Tenure behaviour t s calls s₁) :
    ∃ job, s₁.tasks[t]? = some job ∧ Spreads s.registry payload calls s₁ job := by
  refine h.keeps (P := Spreads s.registry payload) hreach waits (.queued rfl) ?_ ?_
  · intro _ _ _ _ _ _ _ hspreads hturn hreg hkept
    exact hspreads.other hturn hreg hkept
  · intro _ _ _ _ _ hreach₁ ht hspreads hw _ hholds
    rcases hspreads.advance hreach₁ ht hw with hnext | ⟨-, reply, rfl, -⟩
    · exact hnext
    · exact absurd rfl hholds

theorem Reaches.ok_iff {reply : Reply} (h : Reaches s registry payload calls reply) :
    reply = .ok ↔ ∀ p ∈ calls, s.Returns p.1 p.2 none := by
  cases h with
  | all _ hsent => exact ⟨fun _ p hp => (hsent p hp).returns, fun _ => rfl⟩
  | @failed sent c call e hcalls _ hr =>
    refine ⟨nofun, fun hall => ?_⟩
    have hok := hall (c, call) (by simp [hcalls])
    exact absurd (hr.eq hok) nofun

theorem broadcast_delivers_to_a_prefix (reachable : Reachable behaviour s)
    (waits : s.tasks[t]? = some (.broadcast payload none))
    (tenure : Tenure behaviour t s calls s₁) :
    s₁.registry = s.registry ∧ s.registry.Nodup ∧ calls.map Prod.fst <+: s.registry ∧
      (∀ p ∈ calls, s₁.Sends payload p) ∧
      (∀ (c : Nat) (x : Connection), s₁.connections[c]? = some x →
        x.wire = (x.writers.map (segmentAt x.calls)).flatten) ∧
      (∀ p ∈ calls, s₁.Sent payload p → s₁.putBy calls p.1 = [payload]) ∧
      (∀ c, c ∉ calls.map Prod.fst → s₁.putBy calls c = []) ∧
      (∀ a s₂, s₁.step behaviour a = some s₂ → a.task? = some t →
        ∀ c, c ∉ (begunBy t a s₁ s₂).map Prod.fst → s₂.connections[c]? = s₁.connections[c]?) ∧
      (∀ a s₂, s₁.step behaviour a = some s₂ →
        (a.task? = some t ∨ ∃ c act, a = .on c act ∧ act.isSending = true) →
          s₂.registry = s₁.registry ∧ s₂.feed = s₁.feed ∧
            List.Forall₂ SendsOnly s₁.connections s₂.connections) ∧
      (∀ a s₂, s₁.step behaviour a = some s₂ → s₂.lock.isHeldBy t = false →
        a.task? = some t ∧ s₂.connections = s₁.connections ∧
          ∃ reply, s₂.tasks[t]? = some (.done reply) ∧ Reaches s₁ s.registry payload calls reply ∧
            (reply = .ok ↔ ∀ p ∈ calls, s₁.Returns p.1 p.2 none)) ∧
      (s₁.isAborted = false →
        ∃ later s₂ s₃, Tenure behaviour t s₁ later s₂ ∧
          s₂.step behaviour (.resume t) = some s₃ ∧ s₃.lock.isHeldBy t = false) := by
  have hreach₁ := tenure.run.reachable reachable
  have hsound₁ := sound_of_reachable hreach₁
  have hnodup := registry_nodup reachable
  obtain ⟨job, ht, hspreads⟩ := spreads_of_tenure reachable waits tenure
  have hattempted := hspreads.attempted
  refine ⟨hspreads.registry_eq, hnodup, hattempted, hspreads.sends, ?_, ?_, ?_, ?_, ?_, ?_, ?_⟩
  · intro c x hx
    exact (Connection.wired_of_reachable (connection_reachable hreach₁ hx)).wire
  · intro p hp hsent
    exact hsent.putBy hreach₁ hp (hnodup.sublist hattempted.sublist)
  · intro c hc
    exact putBy_eq_nil hc
  · intro a s₂ hs ha c hc
    obtain ⟨s₃, job', hw, rfl⟩ := work_of_step hsound₁ hs ha ht
    rw [begunBy, if_pos ha] at hc
    exact hw.others_of_sending hspreads.isSending hc
  · intro a s₂ hs ha
    exact sends_only hsound₁ ht hspreads.isSending hs ha
  · intro a s₂ hs freed
    obtain ⟨ha, s₃, job', hw, rfl, houtside⟩ := tenure.releases reachable ht hs freed
    rcases hspreads.advance hreach₁ ht hw with hnext | ⟨rfl, reply, rfl, hreaches⟩
    · exact absurd houtside hnext.standing
    · exact ⟨ha, rfl, reply, hw.moved_job ht, hreaches, hreaches.ok_iff⟩
  · intro present
    refine tenure.ends s.registry.length reachable present ?_ ?_
    · intro _ _ htenure
      obtain ⟨job', ht', hspreads'⟩ := spreads_of_tenure reachable waits htenure
      exact hspreads'.unhindered ht'
    · intro later _ htenure
      obtain ⟨_, -, hspreads'⟩ := spreads_of_tenure reachable waits htenure
      have hle := hspreads'.attempted.length_le
      rwa [List.length_map] at hle

def audience : List Action :=
  opening ++
    [.resume 0, .begin (.accept 0), .connect 0 (visitorOn 10), .acceptPeer 1, .resume 1,
      .begin (.accept 0), .connect 0 (visitorOn 11), .acceptPeer 2, .resume 2,
      .begin (.broadcast [1, 2])]

theorem broadcast_stops_at_closed_visitor :
    ∃ s s₁ s₂, Reachable quietObservers s ∧ s.tasks[3]? = some (.broadcast [1, 2] none) ∧
      s.registry = [0, 1, 2] ∧ Tenure quietObservers 3 s [(0, 1), (1, 2)] s₁ ∧
      s₁.putBy [(0, 1), (1, 2)] 0 = [[1, 2]] ∧ s₁.putBy [(0, 1), (1, 2)] 2 = [] ∧
      s₁.step quietObservers (.resume 3) = some s₂ ∧
      ∃ reply, s₂.tasks[3]? = some (.done reply) ∧
        Reaches s₁ [0, 1, 2] [1, 2] [(0, 1), (1, 2)] reply ∧ reply ≠ .ok := by
  obtain ⟨reachable, tenure⟩ := tenure_of_steps quietObservers {} 3 audience
    [.resume 3, .on 0 (.obtainWriter 1), .begin (.close 1), .on 1 (.obtainClosing 1),
      .on 1 (.halt 1 .halted), .on 0 (.write 1 2), .resume 3, .on 1 (.obtainWriter 2)] rfl rfl rfl
  obtain ⟨-, -, -, -, -, whole, nothing, -, -, ends, -⟩ :=
    broadcast_delivers_to_a_prefix reachable rfl tenure
  obtain ⟨-, -, reply, replied, reaches, -⟩ := ends (.resume 3) _ rfl rfl
  refine ⟨_, _, _, reachable, rfl, rfl, tenure, whole (0, 1) (by decide) ⟨_, rfl, rfl⟩,
    nothing 2 (by decide), rfl, reply, replied, reaches, ?_⟩
  rintro rfl
  cases replied

end Fanout.Server
