import Fanout.Proofs.Sending.Attempt

namespace Fanout

theorem Connection.Path.host {c c' : Connection} (h : c.Path c') : c'.host = c.host :=
  h.keeps (P := fun x => x.host = c.host) rfl fun hx ht => ht.host.trans hx

namespace Server

open Connection (SendsOnly)

variable {behaviour : Behaviour} {s s' s₀ s₁ s₂ : Server} {t c : Nat} {job job' : Job} {a : Action}
  {address : String} {payload : List UInt8} {calls : List (Nat × Nat)} {x : Connection}

def IsFirst (s : Server) (address : String) (c : Nat) : Prop :=
  ∃ before after, s.registry = before ++ c :: after ∧ s.hostOf c = address ∧
    ∀ d ∈ before, s.hostOf d ≠ address

structure ListsSame (s s' : Server) : Prop where
  registry : s'.registry = s.registry
  hostOf : ∀ c ∈ s.registry, s'.hostOf c = s.hostOf c

inductive Seeks (s : Server) (address : String) (payload : List UInt8) :
    List (Nat × Nat) → Server → Job → Prop
  | queued {s₁ : Server} (hlists : s.ListsSame s₁) :
      Seeks s address payload [] s₁ (.sendTo address payload none)
  | sending {s₁ : Server} {c call : Nat} (hlists : s.ListsSame s₁) (hfirst : s.IsFirst address c)
      (hcall : s₁.Sends payload (c, call)) :
      Seeks s address payload [(c, call)] s₁ (.sendTo address payload (some (c, call)))

inductive Finds (s : Server) (address : String) (s₁ : Server) : List (Nat × Nat) → Reply → Prop
  | missed (hmiss : ∀ c ∈ s.registry, s.hostOf c ≠ address) :
      Finds s address s₁ [] (.failed (.clientNotFound address))
  | sent {c call : Nat} (hfirst : s.IsFirst address c) (hr : s₁.Returns c call none) :
      Finds s address s₁ [(c, call)] .ok
  | failed {c call : Nat} {e : ConnectionError} (hfirst : s.IsFirst address c)
      (hr : s₁.Returns c call (some e)) :
      Finds s address s₁ [(c, call)] (.failed (.send address e))

theorem IsFirst.mem (h : s.IsFirst address c) : c ∈ s.registry := by
  obtain ⟨before, after, hreg, -⟩ := h
  simp [hreg]

theorem IsFirst.hostOf (h : s.IsFirst address c) : s.hostOf c = address := by
  obtain ⟨-, -, -, hhost, -⟩ := h
  exact hhost

theorem Turn.hostOf (ht : Turn behaviour s a s') (hx : s.connections[c]? = some x) :
    s'.hostOf c = s.hostOf c := by
  obtain ⟨x', hx', hpath⟩ := ht.flows.onward hx
  simp only [Server.hostOf, hx, hx', hpath.host]

namespace ListsSame

theorem turn (h : s.ListsSame s₁) (hs : s₁.Sound) (ht : Turn behaviour s₁ a s₂)
    (hreg : s₂.registry = s₁.registry) : s.ListsSame s₂ where
  registry := hreg.trans h.registry
  hostOf c hc := by
    obtain ⟨x, hx⟩ := hs.knows c (h.registry ▸ hc)
    exact (ht.hostOf hx).trans (h.hostOf c hc)

theorem isFirst (h : s.ListsSame s₁)
    (hf : (s₁.registry.find? fun c => s₁.hostOf c == address) = some c) :
    s.IsFirst address c := by
  obtain ⟨hmatch, before, after, hreg, hno⟩ := List.find?_eq_some_iff_append.mp hf
  rw [h.registry] at hreg
  have hmem (d : Nat) (hd : d ∈ before ++ c :: after) : s₁.hostOf d = s.hostOf d :=
    h.hostOf d (hreg ▸ hd)
  refine ⟨before, after, hreg, ?_, ?_⟩
  · rw [← hmem c (by simp)]
    exact beq_iff_eq.mp hmatch
  · intro d hd
    rw [← hmem d (List.mem_append_left _ hd)]
    simpa using hno d hd

theorem none_found (h : s.ListsSame s₁)
    (hf : (s₁.registry.find? fun c => s₁.hostOf c == address) = none) :
    ∀ c ∈ s.registry, s.hostOf c ≠ address := by
  intro c hc
  rw [← h.hostOf c hc]
  simpa using List.find?_eq_none.mp hf c (h.registry ▸ hc)

end ListsSame

namespace Seeks

theorem lists (h : Seeks s address payload calls s₁ job) : s.ListsSame s₁ := by
  cases h with
  | queued hlists | sending hlists => exact hlists

theorem sends_awaited {call : Nat} (h : Seeks s address payload calls s₁ job)
    (ha : s₁.awaited? job = some (c, call)) : s₁.Sends payload (c, call) := by
  cases h with
  | queued => cases ha
  | sending _ _ hcall =>
    cases ha
    exact hcall

theorem unhindered (h : Seeks s address payload calls s₁ job) (ht : s₁.tasks[t]? = some job) :
    s₁.Unhindered t := by
  intro other c call hu ha
  obtain rfl := Option.some.inj (ht.symm.trans hu)
  exact (h.sends_awaited ha).fleeting

theorem isSending (h : Seeks s address payload calls s₁ job) : job.isSending = true := by
  cases h with
  | queued | sending => rfl

theorem standing (h : Seeks s address payload calls s₁ job) : job.standing ≠ .outside := by
  cases h with
  | queued | sending => exact nofun

theorem attempts (h : Seeks s address payload calls s₁ job) :
    calls.length ≤ 1 ∧ ∀ p ∈ calls, s.IsFirst address p.1 ∧ s₁.Sends payload p := by
  cases h with
  | queued => exact ⟨Nat.zero_le 1, nofun⟩
  | sending _ hfirst hcall =>
    refine ⟨Nat.le_refl 1, fun p hp => ?_⟩
    obtain rfl := List.mem_singleton.mp hp
    exact ⟨hfirst, hcall⟩

theorem other (h : Seeks s address payload calls s₁ job) (hs : s₁.Sound)
    (ht : Turn behaviour s₁ a s₂) (hreg : s₂.registry = s₁.registry) (hkept : job.Kept job') :
    Seeks s address payload calls s₂ job' := by
  cases h with
  | queued hlists =>
    obtain rfl := hkept.eq rfl
    exact .queued (hlists.turn hs ht hreg)
  | sending hlists hfirst hcall =>
    obtain rfl := hkept.eq rfl
    exact .sending (hlists.turn hs ht hreg) hfirst (hcall.turn ht)

theorem advance (h : Seeks s address payload calls s₁ job) (hreach : Reachable behaviour s₁)
    (ht : s₁.tasks[t]? = some job) (hw : Work s₁ t job s₂ job') :
    Seeks s address payload (calls ++ begun s₁ (s₂.moveTask t job job')) (s₂.moveTask t job job')
        job' ∨
      s₂ = s₁ ∧ ∃ reply, job' = .done reply ∧ Finds s address s₁ calls reply := by
  have hturn : Turn behaviour s₁ (.resume t) (s₂.moveTask t job job') :=
    .work rfl ⟨job, s₂, job', ht, hw, rfl⟩
  have hs := sound_of_reachable hreach
  cases hw with
  | findHost held hf hx =>
    cases h with
    | queued hlists =>
      refine .inl ?_
      rw [begun_set hx rfl (List.length_append ..), List.nil_append]
      exact .sending (hlists.turn hs hturn rfl) (hlists.isFirst hf) (sends_begun hx _)
  | missHost held hf =>
    cases h with
    | queued hlists => exact .inr ⟨rfl, _, rfl, .missed (hlists.none_found hf)⟩
  | @sentTo _ _ c call failure hr =>
    cases h with
    | sending hlists hfirst hcall =>
      refine .inr ⟨rfl, _, rfl, ?_⟩
      cases failure with
      | none => exact .sent hfirst hr
      | some e =>
        rw [sendReply, hlists.hostOf c hfirst.mem, hfirst.hostOf]
        exact .failed hfirst hr
  | crash ha hc => exact absurd hc (h.sends_awaited ha).uncrashed
  | sweepNext sweeper | sweepEnd sweeper => cases sweeper <;> cases h
  | _ => cases h

end Seeks

theorem seeks_of_tenure (hreach : Reachable behaviour s)
    (waits : s.tasks[t]? = some (.sendTo address payload none))
    (h : Tenure behaviour t s calls s₁) :
    ∃ job, s₁.tasks[t]? = some job ∧ Seeks s address payload calls s₁ job := by
  refine h.keeps (P := Seeks s address payload) hreach waits (.queued ⟨rfl, fun _ _ => rfl⟩) ?_ ?_
  · intro _ _ _ _ _ _ hreach₁ hseeks hturn hreg hkept
    exact hseeks.other (sound_of_reachable hreach₁) hturn hreg hkept
  · intro _ _ _ _ _ hreach₁ ht hseeks hw _ hholds
    rcases hseeks.advance hreach₁ ht hw with hnext | ⟨-, reply, rfl, -⟩
    · exact hnext
    · exact absurd rfl hholds

theorem Finds.missed_iff {reply : Reply} (h : Finds s address s₁ calls reply) :
    reply = .failed (.clientNotFound address) ↔ ∀ c ∈ s.registry, s.hostOf c ≠ address := by
  have found {c : Nat} (hfirst : s.IsFirst address c)
      (hmiss : ∀ c ∈ s.registry, s.hostOf c ≠ address) : False :=
    hmiss c hfirst.mem hfirst.hostOf
  cases h with
  | missed hmiss => exact ⟨fun _ => hmiss, fun _ => rfl⟩
  | sent hfirst | failed hfirst => exact ⟨nofun, fun hmiss => (found hfirst hmiss).elim⟩

theorem send_to_attempts_first_of_host (reachable : Reachable behaviour s)
    (waits : s.tasks[t]? = some (.sendTo address payload none))
    (tenure : Tenure behaviour t s calls s₁) :
    s.ListsSame s₁ ∧ calls.length ≤ 1 ∧
      (∀ p ∈ calls, s.IsFirst address p.1 ∧ s₁.Sends payload p) ∧
      (∀ a s₂, s₁.step behaviour a = some s₂ → a.task? = some t →
        ∀ c, c ∉ (begunBy t a s₁ s₂).map Prod.fst → s₂.connections[c]? = s₁.connections[c]?) ∧
      (∀ a s₂, s₁.step behaviour a = some s₂ →
        (a.task? = some t ∨ ∃ c act, a = .on c act ∧ act.isSending = true) →
          s₂.registry = s₁.registry ∧ s₂.feed = s₁.feed ∧
            List.Forall₂ SendsOnly s₁.connections s₂.connections) ∧
      (∀ a s₂, s₁.step behaviour a = some s₂ → s₂.lock.isHeldBy t = false →
        a.task? = some t ∧ s₂.connections = s₁.connections ∧
          ∃ reply, s₂.tasks[t]? = some (.done reply) ∧ Finds s address s₁ calls reply ∧
            (reply = .failed (.clientNotFound address) ↔
              ∀ c ∈ s.registry, s.hostOf c ≠ address)) ∧
      (s₁.isAborted = false →
        ∃ later s₂ s₃, Tenure behaviour t s₁ later s₂ ∧
          s₂.step behaviour (.resume t) = some s₃ ∧ s₃.lock.isHeldBy t = false) := by
  have hreach₁ := tenure.run.reachable reachable
  have hsound₁ := sound_of_reachable hreach₁
  obtain ⟨job, ht, hseeks⟩ := seeks_of_tenure reachable waits tenure
  refine ⟨hseeks.lists, hseeks.attempts.1, hseeks.attempts.2, ?_, ?_, ?_, ?_⟩
  · intro a s₂ hs ha c hc
    obtain ⟨s₃, job', hw, rfl⟩ := work_of_step hsound₁ hs ha ht
    rw [begunBy, if_pos ha] at hc
    exact hw.others_of_sending hseeks.isSending hc
  · intro a s₂ hs ha
    exact sends_only hsound₁ ht hseeks.isSending hs ha
  · intro a s₂ hs freed
    obtain ⟨ha, s₃, job', hw, rfl, houtside⟩ := tenure.releases reachable ht hs freed
    rcases hseeks.advance hreach₁ ht hw with hnext | ⟨rfl, reply, rfl, hfinds⟩
    · exact absurd houtside hnext.standing
    · exact ⟨ha, rfl, reply, hw.moved_job ht, hfinds, hfinds.missed_iff⟩
  · intro present
    refine tenure.ends 1 reachable present ?_ ?_
    · intro _ _ htenure
      obtain ⟨job', ht', hseeks'⟩ := seeks_of_tenure reachable waits htenure
      exact hseeks'.unhindered ht'
    · intro _ _ htenure
      obtain ⟨_, -, hseeks'⟩ := seeks_of_tenure reachable waits htenure
      exact hseeks'.attempts.1

/-- Of two visitors from one host the first one has been closed, and a send to the host gets the
registry. -/
def halfGone : List Action :=
  opening ++
    [.resume 0, .begin (.accept 0), .connect 0 (visitorOn 10), .acceptPeer 1, .resume 1,
      .begin (.close 0), .on 0 (.obtainClosing 1), .on 0 (.halt 1 .halted), .on 0 .look,
      .on 0 (.finishClose 1), .resume 2, .begin (.sendTo "127.0.0.1" [104, 105])]

theorem half_gone_sends :
    ∃ s s₁ s₂, Reachable quietObservers s ∧
      s.tasks[3]? = some (.sendTo "127.0.0.1" [104, 105] none) ∧
      (s.registry.find? fun c => s.isConnected c && s.hostOf c == "127.0.0.1") = some 1 ∧
      Tenure quietObservers 3 s [(0, 2)] s₁ ∧ s₁.step quietObservers (.resume 3) = some s₂ ∧
      s₂.lock.isHeldBy 3 = false := by
  have sends : (steps? quietObservers halfGone { config := {} }).any (fun s =>
      (s.lock.isHeldBy 3 ∧ s.tasks[3]? = some (.sendTo "127.0.0.1" [104, 105] none) ∧
        (s.registry.find? fun c => s.isConnected c && s.hostOf c == "127.0.0.1") = some 1) ∧
      (tenure? quietObservers 3 [.resume 3, .on 0 (.obtainWriter 2)] s []).any (fun p =>
        p.1 = [(0, 2)] ∧
          (p.2.step quietObservers (.resume 3)).any fun s₂ => !s₂.lock.isHeldBy 3)) = true := by
    decide +kernel
  obtain ⟨s, hrun, hs⟩ := (Option.any_eq_true _ _).mp sends
  obtain ⟨⟨held, waits, connected⟩, hs⟩ := of_decide_eq_true hs
  obtain ⟨⟨calls, s₁⟩, htenure, hs₁⟩ := (Option.any_eq_true _ _).mp hs
  obtain ⟨rfl, hs₁⟩ := of_decide_eq_true hs₁
  obtain ⟨s₂, hstep, freed⟩ := (Option.any_eq_true _ _).mp hs₁
  obtain ⟨reachable, tenure⟩ := tenure_of_steps quietObservers {} 3 halfGone _ hrun held htenure
  exact ⟨s, s₁, s₂, reachable, waits, connected, tenure, hstep, by simpa using freed⟩

theorem closed_visitor_is_sent_to :
    ∃ s s₁ s₂ reply, Reachable quietObservers s ∧
      s.tasks[3]? = some (.sendTo "127.0.0.1" [104, 105] none) ∧
      Tenure quietObservers 3 s [(0, 2)] s₁ ∧ s.IsFirst "127.0.0.1" 0 ∧
      s₁.step quietObservers (.resume 3) = some s₂ ∧ s₂.tasks[3]? = some (.done reply) ∧
      Finds s "127.0.0.1" s₁ [(0, 2)] reply := by
  obtain ⟨s, s₁, s₂, reachable, waits, -, tenure, hstep, freed⟩ := half_gone_sends
  obtain ⟨-, -, attempts, -, -, ends, -⟩ := send_to_attempts_first_of_host reachable waits tenure
  obtain ⟨-, -, reply, replied, finds, -⟩ := ends (.resume 3) s₂ hstep freed
  exact ⟨s, s₁, s₂, reply, reachable, waits, tenure, (attempts (0, 2) (by decide)).1, hstep,
    replied, finds⟩

theorem connected_visitor_is_passed_over :
    ¬ ∀ (behaviour : Behaviour) (s s₁ s₂ : Server) (t c : Nat) (address : String)
        (payload : List UInt8) (calls : List (Nat × Nat)), Reachable behaviour s →
      s.tasks[t]? = some (.sendTo address payload none) →
      (s.registry.find? fun c => s.isConnected c && s.hostOf c == address) = some c →
      Tenure behaviour t s calls s₁ → s₁.step behaviour (.resume t) = some s₂ →
      s₂.lock.isHeldBy t = false → calls.map Prod.fst = [c] := by
  intro claim
  obtain ⟨s, s₁, s₂, reachable, waits, connected, tenure, hstep, freed⟩ := half_gone_sends
  have wrong := claim _ _ _ _ _ _ _ _ _ reachable waits connected tenure hstep freed
  exact absurd wrong (by decide)

end Server

end Fanout
