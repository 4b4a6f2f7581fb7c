import Fanout.Proofs.Server.Mishap

namespace Fanout

def Connection.closeError (x : Connection) (e : ConnectionError) : ServerError :=
  .shutdown (x.stream.peer.text ++ ": " ++ e.message)

namespace Server

variable {behaviour : Behaviour} {s s' s₁ s₂ : Server} {t c call place : Nat} {job job' : Job}
  {a : Action} {x : Connection} {failure : Failure} {listener : Option Nat}
  {joined first : Option ServerError} {closing : Option (Nat × Nat)} {p : Nat × Nat}
  {calls closed : List (Nat × Nat)} {registry : List Nat}

def IsClose (s : Server) (p : Nat × Nat) : Prop :=
  ∃ x point, s.connections[p.1]? = some x ∧ x.calls[p.2]? = some (.close point)

def Closed (s : Server) (p : Nat × Nat) : Prop :=
  s.IsClose p ∧ ∃ failure, s.Returns p.1 p.2 failure

/-- The first failure of a shutdown: that of joining the reaper, or else that of the first close
that has failed. -/
inductive FirstFailure (s : Server) (joined : Option ServerError) (calls : List (Nat × Nat)) :
    Option ServerError → Prop
  | nowhere (hjoined : joined = none) (hcalls : ∀ p ∈ calls, s.Returns p.1 p.2 none) :
      FirstFailure s joined calls none
  | reaper {e : ServerError} (hjoined : joined = some e) : FirstFailure s joined calls (some e)
  | close {before after : List (Nat × Nat)} {c call : Nat} {x : Connection} {e : ConnectionError}
      (hjoined : joined = none) (hcalls : calls = before ++ (c, call) :: after)
      (hbefore : ∀ p ∈ before, s.Returns p.1 p.2 none) (hx : s.connections[c]? = some x)
      (hr : s.Returns c call (some e)) : FirstFailure s joined calls (some (x.closeError e))

theorem IsClose.turn (h : s.IsClose p) (ht : Turn behaviour s a s') : s'.IsClose p := by
  obtain ⟨x, point, hx, hi⟩ := h
  obtain ⟨x', call', hx', hi', hmoved⟩ := ht.call_onward hx hi
  rcases hmoved with rfl | hm
  · exact ⟨x', point, hx', hi'⟩
  · cases hm with
    | obtainClosing | halt | finishClose => exact ⟨x', _, hx', hi'⟩

theorem isClose_begun (hx : s.connections[c]? = some x) :
    (s.setConnection c x.beginClose).IsClose (c, x.calls.length) :=
  ⟨x.beginClose, .queued, (getElem?_set_eq_some hx).mpr (.inl ⟨rfl, rfl⟩),
    getElem?_concat_eq_some.mpr (.inl ⟨rfl, rfl⟩)⟩

theorem Closed.turn (h : s.Closed p) (ht : Turn behaviour s a s') : s'.Closed p := by
  obtain ⟨hclose, failure, hr⟩ := h
  exact ⟨hclose.turn ht, failure, hr.turn ht⟩

theorem Turn.closeError (ht : Turn behaviour s a s') (hx : s.connections[c]? = some x) :
    ∃ x', s'.connections[c]? = some x' ∧ x'.closeError = x.closeError := by
  obtain ⟨x', hx', hpath⟩ := ht.flows.onward hx
  have hpeer : x'.stream.peer = x.stream.peer :=
    hpath.keeps (P := fun y => y.stream.peer = x.stream.peer) rfl fun hy hturn =>
      hturn.peer.trans hy
  exact ⟨x', hx', funext fun e => by simp only [Connection.closeError, hpeer]⟩

theorem closeFailure_eq (hp : s.registry[place]? = some c) (hx : s.connections[c]? = some x)
    (first : Option ServerError) (failure : Failure) :
    s.closeFailure place first failure = first.or (failure.map x.closeError) := by
  cases failure <;> cases first <;> simp [closeFailure, Connection.closeError, hp, hx]

namespace FirstFailure

theorem start (s : Server) : ∀ joined, s.FirstFailure joined [] joined
  | none => .nowhere rfl nofun
  | some _ => .reaper rfl

theorem turn (h : s.FirstFailure joined calls first) (ht : Turn behaviour s a s') :
    s'.FirstFailure joined calls first := by
  cases h with
  | nowhere hjoined hcalls => exact .nowhere hjoined fun p hp => (hcalls p hp).turn ht
  | reaper hjoined => exact .reaper hjoined
  | close hjoined hcalls hbefore hx hr =>
    obtain ⟨x', hx', heq⟩ := ht.closeError hx
    rw [← heq]
    exact .close hjoined hcalls (fun p hp => (hbefore p hp).turn ht) hx' (hr.turn ht)

theorem next (h : s.FirstFailure joined closed first) (hx : s.connections[c]? = some x)
    (hr : s.Returns c call failure) :
    s.FirstFailure joined (closed ++ [(c, call)]) (first.or (failure.map x.closeError)) := by
  cases h with
  | nowhere hjoined hclosed =>
    cases failure with
    | none =>
      refine .nowhere hjoined fun p hp => ?_
      rcases List.mem_append.mp hp with hp | hp
      · exact hclosed p hp
      · exact List.mem_singleton.mp hp ▸ hr
    | some e => exact .close hjoined rfl hclosed hx hr
  | reaper hjoined => exact .reaper hjoined
  | @close before after c' call' _ _ hjoined hcalls hbefore hx' hr' =>
    have hmore : closed ++ [(c, call)] = before ++ (c', call') :: (after ++ [(c, call)]) := by
      rw [hcalls, List.append_assoc, List.cons_append]
    exact .close hjoined hmore hbefore hx' hr'

theorem eq_none_iff (h : s.FirstFailure joined calls first) :
    first = none ↔ joined = none ∧ ∀ p ∈ calls, s.Returns p.1 p.2 none := by
  cases h with
  | nowhere hjoined hcalls => exact iff_of_true rfl ⟨hjoined, hcalls⟩
  | reaper hjoined => exact iff_of_false nofun fun h => absurd (hjoined.symm.trans h.1) nofun
  | close _ hcalls _ _ hr =>
    refine iff_of_false nofun fun h => ?_
    have hok := h.2 _ (hcalls ▸ List.mem_append_right _ List.mem_cons_self)
    exact absurd (hr.eq hok) nofun

end FirstFailure

/-- How far a shutdown has come along the registry: it waits for the last of its closes, all before
that one have ended, and it has kept the first failure. -/
inductive Closing (registry : List Nat) (listener : Option Nat) (joined : Option ServerError) :
    List (Nat × Nat) → Server → Job → Prop
  | queued {s : Server} (hreg : s.registry = registry) :
      Closing registry listener joined [] s (.closeAll listener joined none)
  | closing {s : Server} {closed : List (Nat × Nat)} {c call : Nat} {first : Option ServerError}
      (hreg : s.registry = registry) (attempted : closed.map Prod.fst ++ [c] <+: registry)
      (hclosed : ∀ p ∈ closed, s.Closed p) (hfirst : s.FirstFailure joined closed first)
      (hcall : s.IsClose (c, call)) :
      Closing registry listener joined (closed ++ [(c, call)]) s
        (.closeAll listener first (some (closed.length, call)))

namespace Closing

theorem registry_eq (h : Closing registry listener joined calls s job) : s.registry = registry := by
  cases h with
  | queued hreg | closing hreg => exact hreg

theorem attempted (h : Closing registry listener joined calls s job) :
    calls.map Prod.fst <+: registry := by
  cases h with
  | queued => exact List.nil_prefix
  | closing _ attempted => simpa using attempted

theorem job_eq (h : Closing registry listener joined calls s job) :
    ∃ first closing, job = .closeAll listener first closing := by
  cases h with
  | queued | closing => exact ⟨_, _, rfl⟩

theorem other (h : Closing registry listener joined calls s job) (ht : Turn behaviour s a s')
    (hreg : s'.registry = s.registry) (hkept : job.Kept job') :
    Closing registry listener joined calls s' job' := by
  cases h with
  | queued hreg' =>
    obtain rfl := hkept.eq rfl
    exact .queued (hreg.trans hreg')
  | closing hreg' attempted hclosed hfirst hcall =>
    obtain rfl := hkept.eq rfl
    exact .closing (hreg.trans hreg') attempted (fun p hp => (hclosed p hp).turn ht)
      (hfirst.turn ht) (hcall.turn ht)

theorem arrives (h : Closing registry listener joined calls s (.closeAll listener first closing))
    (ha : s.Arrives t closing place failure) :
    place = calls.length ∧ (∀ p ∈ calls, s.Closed p) ∧
      s.FirstFailure joined calls (s.closeFailure (place - 1) first failure) := by
  cases h with
  | queued =>
    cases ha
    exact ⟨rfl, nofun, .start s _⟩
  | closing hreg attempted hclosed hfirst hcall =>
    cases ha with
    | next hp hr =>
      obtain rfl := eq_of_attempted attempted (hreg ▸ hp)
      refine ⟨by simp, ?_, ?_⟩
      · intro p hp
        rcases List.mem_append.mp hp with hp | hp
        · exact hclosed p hp
        · exact List.mem_singleton.mp hp ▸ ⟨hcall, failure, hr⟩
      · obtain ⟨x, hx, -⟩ := id hr
        rw [Nat.add_sub_cancel, closeFailure_eq hp hx]
        exact hfirst.next hx hr

theorem advance (h : Closing registry listener joined calls s job) (behaviour : Behaviour)
    (hs : s.Orderly) (ht : s.tasks[t]? = some job) (hw : Work s t job s₁ job') :
    Closing registry listener joined (calls ++ begun s (s₁.moveTask t job job'))
        (s₁.moveTask t job job') job' ∨
      s₁ = { s with registry := [] }.releaseListener listener ∧ calls.map Prod.fst = registry ∧
        (∀ p ∈ calls, s.Closed p) ∧
        ∃ first, s.FirstFailure joined calls first ∧ job' = .done (shutdownReply first) := by
  have hturn : Turn behaviour s (.resume t) (s₁.moveTask t job job') :=
    .work rfl ⟨job, s₁, job', ht, hw, rfl⟩
  have hreg := h.registry_eq
  obtain ⟨_, _, rfl⟩ := h.job_eq
  cases hw.dismisses with
  | close ha hp hx =>
    obtain ⟨rfl, hclosed, hfirst⟩ := h.arrives ha
    refine .inl ?_
    rw [begun_set hx rfl (List.length_append ..)]
    exact .closing hreg (attempted_next h.attempted (hreg ▸ hp))
      (fun p hp => (hclosed p hp).turn hturn) (hfirst.turn hturn) (isClose_begun hx)
  | empty ha hp =>
    obtain ⟨rfl, hclosed, hfirst⟩ := h.arrives ha
    exact .inr ⟨rfl, attempted_all h.attempted (hreg ▸ hp), hclosed, _, hfirst, rfl⟩
  | crash ha hc => exact absurd hc (hs.engaged.uncrashed hs.sound ht rfl ha)

end Closing

theorem closing_of_tenure (h : s.Orderly)
    (waits : s.tasks[t]? = some (.closeAll listener joined none))
    (tenure : Tenure behaviour t s calls s₁) :
    s₁.Orderly ∧ ∃ job, s₁.tasks[t]? = some job ∧
      Closing s.registry listener joined calls s₁ job := by
  obtain ⟨job, ht, horderly, hclosing⟩ :=
    tenure.sustains (P := fun calls s₁ job => s₁.Orderly ∧
      Closing s.registry listener joined calls s₁ job) h.sound waits ⟨h, .queued rfl⟩
      (fun hsound ⟨horderly, hclosing⟩ hs hreg hkept =>
        ⟨horderly.step hs, hclosing.other (hsound.turn_of_step hs) hreg hkept⟩)
      (fun _ ht ⟨horderly, hclosing⟩ hw hs _ hholds => by
        rcases hclosing.advance behaviour horderly ht hw with
          hnext | ⟨-, -, -, first, -, rfl⟩
        · exact ⟨horderly.step hs, hnext⟩
        · exact absurd rfl hholds)
  exact ⟨horderly, job, ht, hclosing⟩

theorem closes_all (h : s.Orderly) (waits : s.tasks[t]? = some (.closeAll listener joined none))
    (tenure : Tenure behaviour t s calls s₁) (hs : s₁.step behaviour a = some s₂)
    (freed : s₂.lock.isHeldBy t = false) :
    a.task? = some t ∧ s₂.registry = [] ∧ calls.map Prod.fst = s.registry ∧
      (∀ p ∈ calls, s₁.Closed p) ∧
      ∃ first, s₁.FirstFailure joined calls first ∧
        s₂.tasks[t]? = some (.done (shutdownReply first)) := by
  obtain ⟨horderly, job, ht, hclosing⟩ := closing_of_tenure h waits tenure
  obtain ⟨ha, s₃, job', hw, rfl, houtside⟩ := tenure.gives_up horderly.sound ht hs freed
  rcases hclosing.advance behaviour horderly ht hw with
    hnext | ⟨rfl, hall, hclosed, first, hfirst, rfl⟩
  · -- As long as it closes it keeps the registry.
    obtain ⟨_, closing, rfl⟩ := hnext.job_eq
    cases closing <;> cases houtside
  · refine ⟨ha, ?_, hall, hclosed, first, hfirst, hw.moved_job ht⟩
    cases listener <;> rfl

theorem Sound.comes_to_end (behaviour : Behaviour) (h : s.Sound) (ht : s.tasks[t]? = some job)
    (hj : job.isClearing = true) (ha : s.awaited? job = some (c, call))
    (hx : s.connections[c]? = some x) (held : s.lock.isHeldBy t = true)
    (present : s.isAborted = false) :
    ∃ s₁, Tenure behaviour t s [] s₁ ∧
      (s₁.isAborted = true ∨ ∃ s₂, s₁.step behaviour (.resume t) = some s₂) := by
  -- By induction on what is left to do on the connection. Nothing but the end of the process keeps
  -- a task from the end of the close that it waits for.
  induction hn : x.load using Nat.strongRecOn generalizing s x with
  | ind n ih =>
    obtain ⟨-, y, p, hy, hi⟩ := h.awaited_of_clearing ht hj ha
    obtain rfl := Option.some.inj (hx.symm.trans hy)
    cases he : x.ending? call with
    | some ending =>
      obtain ⟨s₂, hs⟩ := step_of_resume present (h.caller_goes_on ht ha hx he)
      exact ⟨s, .start held, .inr ⟨s₂, hs⟩⟩
    | none =>
      have hxsound := h.connections hx
      have hunended : (Call.close p).ending? = none := by
        simpa [Connection.ending?, hi] using he
      obtain ⟨act, hact, hgoes⟩ := hxsound.wanes hi hunended
      obtain ⟨⟨x', feed⟩, hstep⟩ := hgoes (ServerFeed.tell behaviour c) s.feed
      have hs : s.step behaviour (.on c act) = some { s.setConnection c x' with feed } := by
        simp [step, present, Connection.Action.not_call_of_waning hact, actOn, hx, hstep]
      have htenure : Tenure behaviour t s [] { s.setConnection c x' with feed } :=
        .step (.start held) hs held
      cases haborted : ({ s.setConnection c x' with feed } : Server).isAborted with
      | true => exact ⟨_, htenure, .inl haborted⟩
      | false =>
        have hlt : x'.load < x.load :=
          (Connection.turn_of_step hstep).wanes (hxsound.cancelled hi) hact
        obtain ⟨s₁, hrest, hend⟩ := ih x'.load (hn ▸ hlt) (h.turn (h.turn_of_step hs)) ht ha
          ((getElem?_set_eq_some hx).mpr (.inl ⟨rfl, rfl⟩)) held haborted rfl
        exact ⟨s₁, htenure.trans hrest, hend⟩

theorem closing_ends (h : s.Orderly) (waits : s.tasks[t]? = some (.closeAll listener joined none))
    (tenure : Tenure behaviour t s calls s₁) (present : s₁.isAborted = false) :
    ∃ later s₂, Tenure behaviour t s₁ later s₂ ∧ (s₂.isAborted = true ∨
      ∃ s₃, s₂.step behaviour (.resume t) = some s₃ ∧ s₃.lock.isHeldBy t = false) := by
  refine tenure.ends_unless (Q := fun s₂ => s₂.isAborted = true) s.registry.length h.sound present
    ?_ ?_
  · intro calls₁ s₂ htenure present₁
    obtain ⟨horderly, job, ht, hclosing⟩ := closing_of_tenure h waits htenure
    cases hclosing with
    | queued =>
      obtain ⟨s₃, hs⟩ :=
        step_of_resume present₁ (horderly.sound.holder_goes_on ht rfl htenure.held)
      exact ⟨s₂, .start htenure.held, .inr ⟨s₃, hs⟩⟩
    | closing _ _ _ _ hcall =>
      obtain ⟨d, k, ha⟩ := horderly.sound.awaited_of_holding ht rfl
      obtain ⟨-, x, -, hx, -⟩ := horderly.sound.awaited_of_clearing ht rfl ha
      exact horderly.sound.comes_to_end behaviour ht rfl ha hx htenure.held present₁
  · intro calls₁ s₂ htenure
    obtain ⟨-, _, -, hclosing⟩ := closing_of_tenure h waits htenure
    have hle := hclosing.attempted.length_le
    rwa [List.length_map] at hle

end Server

end Fanout
