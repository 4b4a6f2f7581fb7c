import Fanout.Proofs.Server.Admission
import Fanout.Proofs.Server.Drained
import Fanout.Proofs.Server.Ticking

namespace Fanout

theorem filter_eraseIdx {α : Type} {xs : List α} {p : α → Bool} {i : Nat} {x : α}
    (hi : xs[i]? = some x) (hp : p x = false) : (xs.eraseIdx i).filter p = xs.filter p := by
  obtain ⟨hlt, rfl⟩ := List.getElem?_eq_some_iff.mp hi
  have hsplit : xs = xs.take i ++ xs[i] :: xs.drop (i + 1) := by simp
  calc (xs.eraseIdx i).filter p
      = (xs.take i).filter p ++ (xs.drop (i + 1)).filter p := by
        rw [List.eraseIdx_eq_take_drop_succ, List.filter_append]
    _ = (xs.take i ++ xs[i] :: xs.drop (i + 1)).filter p := by
        rw [List.filter_append, List.filter_cons_of_neg (by simp [hp])]
    _ = xs.filter p := by rw [← hsplit]

theorem Lock.mem_moved {l : Lock} {i j : Nat} {p q : Lock.Standing}
    (h : i ∈ (l.moved j p q).queue) : i = j ∨ i ∈ l.queue := by
  rcases l.moved_cases j p q with heq | heq | heq <;> rw [heq] at h
  · exact .inr h
  · rcases List.mem_append.mp h with hold | hnew
    · exact .inr hold
    · exact .inl (List.mem_singleton.mp hnew)
  · exact .inr (List.mem_of_mem_erase h)

def Connection.IsOccupied (x : Connection) : Prop :=
  ∃ i payload point, x.writing.isHeldBy i = true ∧ x.calls[i]? = some (.send payload point)

namespace Server

variable {behaviour : Behaviour} {s s' s₀ s₁ : Server} {r c d next evicted place call : Nat}
  {job job' : Job} {a : Action} {x : Connection} {sweep : Option (Nat × Option (Nat × Nat))}
  {closing : Option (Nat × Nat)}

def Sleeps (s : Server) (r : Nat) : Prop :=
  ∃ next, s.tasks[r]? = some (.reaper false next none) ∧ s.now < next

def Meanwhiles (behaviour : Behaviour) (r : Nat) (s s' : Server) : Prop :=
  ∃ a, s.step behaviour a = some s' ∧ (a = .resume r ∨ ∃ c act, a = .on c act) ∧
    ∀ c ∈ s.registry, s'.isConnected c = s.isConnected c

def Meanwhile (behaviour : Behaviour) (r : Nat) : Server → Server → Prop :=
  Relation.ReflTransGen (Meanwhiles behaviour r)

def Reaps (behaviour : Behaviour) (r : Nat) (s s' : Server) : Prop :=
  ∃ a, s.step behaviour a = some s' ∧ (a = .resume r ∨ ∃ c act, a = .on c act ∧
    act.isEasing = true ∧ c ∈ s.registry ∧ s.isConnected c = false)

def Reaped (behaviour : Behaviour) (r : Nat) : Server → Server → Prop :=
  Relation.ReflTransGen (Reaps behaviour r)

theorem HasClosed.isConnected (h : s.HasClosed c) : s.isConnected c = false := by
  obtain ⟨x, hx, hclosed⟩ := h
  exact (isConnected_eq_false hx).mpr hclosed.1

theorem Amends.leaves (h : s.Amends a s') (hno : ∀ c, ¬ s.Accepts a s' c) :
    s'.registry ⊆ s.registry ∧
      s'.registry.filter s.isConnected = s.registry.filter s.isConnected ∧
      ∀ c ∈ s.registry, c ∈ s'.registry ∨ s.HasClosed c := by
  cases h with
  | keeps hr => exact ⟨hr ▸ List.Subset.refl _, by rw [hr], fun c hc => .inl (hr ▸ hc)⟩
  | enlists ha => exact absurd ha (hno _)
  | @evicts place c _ hp hclosed hr =>
    refine ⟨hr ▸ List.eraseIdx_subset, hr ▸ filter_eraseIdx hp hclosed.isConnected, ?_⟩
    intro d hd
    obtain ⟨i, hi⟩ := List.mem_iff_getElem?.mp hd
    by_cases hip : i = place
    · subst hip
      obtain rfl := Option.some.inj (hp.symm.trans hi)
      exact .inr hclosed
    · exact .inl (hr ▸ List.mem_eraseIdx_iff_getElem?.mpr ⟨i, hip, hi⟩)
  | empties _ hclosed hr =>
    refine ⟨hr ▸ List.nil_subset _, ?_, fun c hc => .inr (hclosed c hc)⟩
    rw [hr, List.filter_nil]
    exact (List.filter_eq_nil_iff.mpr fun c hc => by simp [(hclosed c hc).isConnected]).symm

theorem Sound.registered_of_active (h : s.Sound) (hx : s.connections[c]? = some x)
    (hr : x.receiver = .idle ∨ x.receiver = .reading) : c ∈ s.registry := by
  have hlistening := (h.connections hx).listening_of_active hr
  have hactive : x.receiver ≠ .absent := by rcases hr with hr | hr <;> simp [hr]
  rcases h.housed hx with hdown | ⟨t, job, ht, ho⟩
  · simp [hlistening] at hdown
  · have hf := h.fits ht
    rcases Job.own?_eq_some.mp ho with ⟨l, rfl⟩ | ⟨call, e, rfl⟩ | rfl
    · obtain ⟨y, hy, hun⟩ := hf
      obtain rfl := Option.some.inj (hx.symm.trans hy)
      exact absurd (hun.receiver (h.connections hx)).1 hactive
    · obtain ⟨-, -, y, hy, hrefused⟩ := hf
      obtain rfl := Option.some.inj (hx.symm.trans hy)
      exact absurd hrefused.receiver hactive
    · obtain ⟨y, hy, hin | hshut⟩ := hf
      · exact hin
      · obtain rfl := Option.some.inj (hx.symm.trans hy)
        exact absurd (hlistening.symm.trans hshut.phase) nofun

theorem Rounds.connections {cancelled : Bool} (hr : Rounds s r cancelled next sweep s₁ job') :
    s₁.connections = s.connections ∨ ∃ c x, c ∈ s.registry ∧ s.connections[c]? = some x ∧
      x.phase = .disconnected ∧ s₁.connections = s.connections.set c x.beginClose := by
  cases hr with
  | stop | tick | crash => exact .inl rfl
  | @close _ _ s₂ _ _ c x hs hp hx hd =>
    refine .inr ⟨c, x, ?_, hx, hd, by simp only [setConnection, hs.frame.2.2]⟩
    cases hs with
    | first => exact List.mem_of_getElem? hp
    | evict => exact List.mem_of_mem_eraseIdx (List.mem_of_getElem? hp)
  | rest hs => exact .inl hs.frame.2.2

/-- From `s₀` on only the reaper has worked on the registry, and it has not slept over a dead one.
-/
structure Reaping (behaviour : Behaviour) (s₀ : Server) (r : Nat) (s : Server) : Prop where
  reachable : Reachable behaviour s
  present : s.isAborted = false
  running : s.reaper = some r
  alone : ∀ t ∈ s.lock.queue, t = r
  ebbing : ∀ {c : Nat} {x : Connection}, c ∈ s.registry → s.connections[c]? = some x →
    x.phase = .disconnected → x.Ebbing
  swept : s.Sleeps r → ∀ c ∈ s.registry, s.isConnected c = true
  left : s.registry.filter s.isConnected = s₀.registry.filter s₀.isConnected
  gone : ∀ c ∈ s₀.registry, c ∈ s.registry ∨ s.HasClosed c

namespace Reaping

theorem sound (h : Reaping behaviour s₀ r s) : s.Sound :=
  sound_of_reachable h.reachable

theorem punctual (h : Reaping behaviour s₀ r s) : s.Punctual :=
  punctual_of_reachable h.reachable

theorem awake (h : Reaping behaviour s₀ r s) :
    ∃ next sweep, s.tasks[r]? = some (.reaper false next sweep) :=
  (h.punctual.running h.running).2

theorem remains (h : Reaping behaviour s₀ r s) (hs : s.step behaviour a = some s')
    (hno : ∀ c, ¬ s.Accepts a s' c) (hconn : ∀ c ∈ s.registry, s'.isConnected c = s.isConnected c) :
    s'.registry ⊆ s.registry ∧
      s'.registry.filter s'.isConnected = s₀.registry.filter s₀.isConnected ∧
      ∀ c ∈ s₀.registry, c ∈ s'.registry ∨ s'.HasClosed c := by
  have hturn := h.sound.turn_of_step hs
  obtain ⟨hsub, hfilter, hleft⟩ :=
    (hturn.amends h.sound (trailed_of_reachable h.reachable)).leaves hno
  refine ⟨hsub, ?_, ?_⟩
  · rw [← h.left, ← hfilter]
    exact List.filter_congr fun c hc => hconn c (hsub hc)
  · intro c hc
    rcases h.gone c hc with hin | hclosed
    · exact (hleft c hin).imp_right fun hclosed => hclosed.turn hturn
    · exact .inr (hclosed.turn hturn)

theorem on {act : Connection.Action} (h : Reaping behaviour s₀ r s)
    (hs : s.step behaviour (.on c act) = some s')
    (hconn : ∀ c ∈ s.registry, s'.isConnected c = s.isConnected c) : Reaping behaviour s₀ r s' := by
  obtain ⟨hsub, hleft, hgone⟩ := h.remains hs (fun d ⟨t, l, ha, _⟩ => absurd ha nofun) hconn
  have hcall := uncalled_of_step hs
  have hreach' : Reachable behaviour s' := .step _ h.reachable hs
  obtain ⟨x, x', feed, hx, hstep, rfl⟩ := on_of_step hs
  have hturn := Connection.turn_of_step hstep
  have down (hc : c ∈ s.registry) (hd : x'.phase = .disconnected) : x.phase = .disconnected := by
    have hat : (s.connections.set c x')[c]? = some x' :=
      (getElem?_set_eq_some hx).mpr (.inl ⟨rfl, rfl⟩)
    exact (isConnected_eq_false hx).mp ((hconn c hc).symm.trans ((isConnected_eq_false hat).mpr hd))
  refine ⟨hreach', ?_, h.running, h.alone, ?_, ?_, hleft, hgone⟩
  · refine Bool.eq_false_iff.mpr fun haborted => ?_
    have hr' : x'.receiver = .ended .aborted := (isAborted_set h.present hx rfl).mp haborted
    by_cases hactive : x.receiver = .idle ∨ x.receiver = .reading
    · have hdown : x'.phase = .disconnected := by
        have hstaged := ((h.sound.connections hx).turn hturn).staged
        cases hp : x'.phase <;> simp_all [Connection.Staged]
      have hup := (h.sound.connections hx).listening_of_active hactive
      have hdown' := down (h.sound.registered_of_active hx hactive) hdown
      cases hup.symm.trans hdown'
    · have hnot := not_or.mp hactive
      rcases hturn.receiver_of_resting hnot.1 hnot.2 with hsame | hidle
      · exact isAborted_eq_false.mp h.present c x hx (hsame.symm.trans hr')
      · cases hidle.symm.trans hr'
  · intro d y hd hy hphase
    rcases (getElem?_set_eq_some hx).mp hy with ⟨rfl, rfl⟩ | ⟨-, hold⟩
    · refine (h.ebbing hd hx (down hd hphase)).turn hturn fun payload heq => ?_
      exact absurd hcall (by simp [heq, Connection.Action.isCall])
    · exact h.ebbing hd hold hphase
  · intro hsleeps d hd
    exact (hconn d hd).trans (h.swept hsleeps d hd)

theorem held (h : Reaping behaviour s₀ r s) (ht : s.tasks[r]? = some job)
    (hj : job.standing ≠ .outside) : s.lock.isHeldBy r = true := by
  have hmem : r ∈ s.lock.queue := (h.sound.lock.mem_queue_iff (by simp [ht])).mpr hj
  obtain ⟨t, held⟩ := Lock.exists_isHeldBy hmem
  exact h.alone t (Lock.mem_of_isHeldBy held) ▸ held

theorem resume (h : Reaping behaviour s₀ r s) (hs : s.step behaviour (.resume r) = some s') :
    Reaping behaviour s₀ r s' ∧ (∀ c ∈ s.registry, s'.isConnected c = s.isConnected c) ∧
      ∃ next sweep s₁ job', s.tasks[r]? = some (.reaper false next sweep) ∧
        Work s r (.reaper false next sweep) s₁ job' ∧
        s' = s₁.moveTask r (.reaper false next sweep) job' := by
  obtain ⟨next, sweep, ht⟩ := h.awake
  have hsound := h.sound
  have hturn := hsound.turn_of_step hs
  have hconn : ∀ c ∈ s.registry, s'.isConnected c = s.isConnected c := by
    intro c hc
    obtain ⟨x, hx, -⟩ := hsound.given_fits (hsound.given hc)
    exact hturn.isConnected_eq hsound hx nofun
  have hno (c : Nat) : ¬ s.Accepts (.resume r) s' c := by
    rintro ⟨t, l, ha, hu, -⟩
    obtain rfl := Option.some.inj ha
    cases Option.some.inj (ht.symm.trans hu)
  obtain ⟨hsub, hleft, hgone⟩ := h.remains hs hno hconn
  have hreach' : Reachable behaviour s' := .step _ h.reachable hs
  have hresumes : s.resume r = some s' := by simpa [step, h.present] using hs
  obtain ⟨job, s₁, job', ht', hw, rfl⟩ := works_resume hsound hresumes
  obtain rfl := Option.some.inj (ht.symm.trans ht')
  have hnew := hw.moved_job ht
  have hrounds := hw.rounds
  refine ⟨⟨hreach', hw.present h.present, ?_, ?_, ?_, ?_, hleft, hgone⟩, hconn, next, sweep, s₁, job',
    ht, hw, rfl⟩
  · exact hw.frame.2.2.2.1.trans h.running
  · intro t hmem
    simp only [moveTask, hw.frame.1] at hmem
    exact (Lock.mem_moved hmem).elim id (h.alone t)
  · intro c x' hc hx' hphase
    rcases hrounds.connections with hsame | ⟨d, x, hd, hx, hdown, hset⟩
    · exact h.ebbing (hsub hc) (hsame ▸ hx') hphase
    · rcases (getElem?_set_eq_some hx).mp (hset ▸ hx') with ⟨rfl, rfl⟩ | ⟨-, hold⟩
      · exact (h.ebbing hd hx hdown).turn .close (by simp)
      · exact h.ebbing (hsub hc) hold hphase
  · rintro ⟨next', hjob, -⟩
    obtain rfl := Option.some.inj (hnew.symm.trans hjob)
    cases hrounds with
    | rest _ clean => exact clean

theorem meanwhile (h : Reaping behaviour s₀ r s) (hm : Meanwhile behaviour r s s') :
    Reaping behaviour s₀ r s' := by
  induction hm with
  | refl => exact h
  | tail _ hn ih =>
    obtain ⟨a, hs, rfl | ⟨c, act, rfl⟩, hconn⟩ := hn
    · exact (ih.resume hs).1
    · exact ih.on hs hconn

theorem registry_eq (h : Reaping behaviour s₀ r s) (hsleeps : s.Sleeps r) :
    s.registry = s₀.registry.filter s₀.isConnected := by
  rw [← h.left]
  exact (List.filter_eq_self.mpr (h.swept hsleeps)).symm

theorem eases {act : Connection.Action} {x' : Connection} (h : Reaping behaviour s₀ r s)
    (hc : c ∈ s.registry) (hx : s.connections[c]? = some x) (hd : x.phase = .disconnected)
    (hact : act.isEasing = true)
    (hstep : x.step (ServerFeed.tell behaviour c) act s.feed = some (x', s.feed)) :
    Reaps behaviour r s (s.setConnection c x') ∧
      Reaping behaviour s₀ r (s.setConnection c x') := by
  have hcall : act.isCall = false := by cases act <;> first | rfl | exact absurd hact nofun
  have hs : s.step behaviour (.on c act) = some (s.setConnection c x') := by
    simp only [step, h.present, hcall, actOn, hx, Option.bind_eq_bind, Option.bind_some, hstep]
    rfl
  have hdown : s.isConnected c = false := (isConnected_eq_false hx).mpr hd
  have hconn (d : Nat) : (s.setConnection c x').isConnected d = s.isConnected d := by
    by_cases hcd : c = d
    · subst hcd
      have hat : (s.setConnection c x').connections[c]? = some x' :=
        (getElem?_set_eq_some hx).mpr (.inl ⟨rfl, rfl⟩)
      have hd' := (Connection.turn_of_step hstep).disconnected_mono hd
      exact ((isConnected_eq_false hat).mpr hd').trans hdown.symm
    · simp only [isConnected, setConnection, List.getElem?_set_ne hcd]
  exact ⟨⟨_, hs, .inr ⟨c, act, rfl, hact, hc, hdown⟩⟩, h.on hs fun d _ => hconn d⟩

theorem closes (h : Reaping behaviour s₀ r s)
    (ht : s.tasks[r]? = some (.reaper false next (some (evicted, some (place, call))))) :
    ∃ s', Reaped behaviour r s s' ∧ Reaping behaviour s₀ r s' ∧
      s'.tasks[r]? = some (.reaper false next (some (evicted, some (place, call)))) ∧
      s'.registry = s.registry ∧ s'.now = s.now ∧ (s'.resume r).isSome = true := by
  obtain ⟨c, x, hp, hx, hsettles⟩ := h.punctual.closing ht
  -- By induction on what is left to do on the dead connection.
  induction hn : x.work using Nat.strongRecOn generalizing s x with
  | ind n ih =>
    cases hend : x.ending? call with
    | some ending =>
      have ha : s.awaited? (.reaper false next (some (evicted, some (place, call)))) =
          some (c, call) := by simp [awaited?, hp]
      exact ⟨s, .refl, h, ht, rfl, rfl, h.sound.caller_goes_on ht ha hx hend⟩
    | none =>
      obtain ⟨hd, p, hcall, -⟩ := id hsettles
      have hc := List.mem_of_getElem? hp
      have hunended : (Call.close p).ending? = none := by
        simpa [Connection.ending?, hcall] using hend
      obtain ⟨act, x', hact, hstep, -, hlt⟩ :=
        (h.ebbing hc hx hd).progress (ServerFeed.tell behaviour c) s.feed hcall hunended
      obtain ⟨hreaps, h'⟩ := h.eases hc hx hd hact hstep
      have hx' : (s.setConnection c x').connections[c]? = some x' :=
        (getElem?_set_eq_some hx).mpr (.inl ⟨rfl, rfl⟩)
      have hsettles' := hsettles.turn (Connection.turn_of_step hstep)
      obtain ⟨s', hrun, hrest⟩ := ih x'.work (hn ▸ hlt) h' ht x' hp hx' hsettles' rfl
      exact ⟨s', hrun.head hreaps, hrest⟩

theorem rounds (h : Reaping behaviour s₀ r s)
    (ht : s.tasks[r]? = some (.reaper false next sweep)) (hgo : (s.resume r).isSome = true) :
    ∃ s₁ job' s', Reaps behaviour r s s' ∧ Reaping behaviour s₀ r s' ∧
      Rounds s r false next sweep s₁ job' ∧ s'.tasks[r]? = some job' ∧
      s'.registry = s₁.registry ∧ s'.now = s.now := by
  obtain ⟨s', hs'⟩ := Option.isSome_iff_exists.mp hgo
  have hs : s.step behaviour (.resume r) = some s' := by simp [step, h.present, hs']
  obtain ⟨h', -, next', sweep', s₁, job', ht', hw, rfl⟩ := h.resume hs
  obtain ⟨-, rfl, rfl⟩ := Job.reaper.inj (Option.some.inj (ht.symm.trans ht'))
  exact ⟨s₁, job', _, ⟨_, hs, .inl rfl⟩, h', hw.rounds, hw.moved_job ht, rfl, hw.clock.2⟩

theorem ends_sweep (h : Reaping behaviour s₀ r s)
    (ht : s.tasks[r]? = some (.reaper false next (some (evicted, some (place, call))))) :
    ∃ s', Reaped behaviour r s s' ∧ Reaping behaviour s₀ r s' ∧
      s'.tasks[r]? = some (.reaper false next none) ∧ s'.now = s.now := by
  -- By induction on the length of the registry, from which each dead connection is evicted.
  induction hn : s.registry.length using Nat.strongRecOn generalizing s evicted place call with
  | ind n ih =>
    obtain ⟨s₁, hrun, h₁, ht₁, hreg₁, hnow₁, hgo⟩ := h.closes ht
    obtain ⟨s₂, job', s₃, hreaps, h₃, hrounds, ht₃, hreg₃, hnow₃⟩ := h₁.rounds ht₁ hgo
    have hrun₃ : Reaped behaviour r s s₃ := hrun.tail hreaps
    have hnow : s₃.now = s.now := hnow₃.trans hnow₁
    cases hrounds with
    | close hcleared =>
      have hlt : s₃.registry.length < n := by
        cases hcleared with
        | evict hp =>
          have hlen := (List.getElem?_eq_some_iff.mp hp).1
          rw [hreg₃, ← hn, ← hreg₁]
          simp only [setConnection, evict, List.length_eraseIdx_of_lt hlen]
          omega
      obtain ⟨s₄, hrun', h₄, ht₄, hnow₄⟩ := ih _ hlt h₃ ht₃ rfl
      exact ⟨s₄, hrun₃.trans hrun', h₄, ht₄, hnow₄.trans hnow⟩
    | rest => exact ⟨s₃, hrun₃, h₃, ht₃, hnow⟩
    | crash =>
      obtain ⟨_, _, hawake⟩ := h₃.awake
      cases Option.some.inj (ht₃.symm.trans hawake)

theorem sweeps (h : Reaping behaviour s₀ r s)
    (ht : s.tasks[r]? = some (.reaper false next (some (evicted, closing)))) :
    ∃ s', Reaped behaviour r s s' ∧ Reaping behaviour s₀ r s' ∧
      s'.tasks[r]? = some (.reaper false next none) ∧ s'.now = s.now := by
  cases closing with
  | some closing => exact h.ends_sweep ht
  | none =>
    have hgo := h.sound.holder_goes_on ht rfl (h.held ht nofun)
    obtain ⟨s₁, job', s₂, hreaps, h₂, hrounds, ht₂, -, hnow₂⟩ := h.rounds ht hgo
    cases hrounds with
    | close =>
      obtain ⟨s₃, hrun, h₃, ht₃, hnow₃⟩ := h₂.ends_sweep ht₂
      exact ⟨s₃, hrun.head hreaps, h₃, ht₃, hnow₃.trans hnow₂⟩
    | rest => exact ⟨s₂, .single hreaps, h₂, ht₂, hnow₂⟩
    | crash ha => exact absurd ha nofun

theorem catches_up (h : Reaping behaviour s₀ r s)
    (ht : s.tasks[r]? = some (.reaper false next none)) :
    ∃ s', Reaped behaviour r s s' ∧ s'.Sleeps r ∧ Reaping behaviour s₀ r s' := by
  -- By induction on how late the reaper is, since each tick comes later than the one before.
  induction hn : s.now + 1 - next using Nat.strongRecOn generalizing s next with
  | ind n ih =>
    by_cases hdue : next ≤ s.now
    · have hgo : (s.resume r).isSome = true := by
        simp [Server.resume, ht, awaited?, proceed, tick, hdue]
      obtain ⟨s₁, job', s₂, hreaps, h₂, hrounds, ht₂, -, hnow₂⟩ := h.rounds ht hgo
      cases hrounds with
      | stop hc => cases hc
      | crash ha => cases ha
      | tick =>
        obtain ⟨s₃, hrun, h₃, ht₃, hnow₃⟩ := h₂.sweeps ht₂
        have hlater := lt_nextTick hdue (h.punctual.running h.running).1
        obtain ⟨s₄, hrun', hsleeps, h₄⟩ := ih _ (by omega) h₃ ht₃ rfl
        exact ⟨s₄, (hrun.head hreaps).trans hrun', hsleeps, h₄⟩
    · exact ⟨s, .refl, ⟨next, ht, Nat.lt_of_not_le hdue⟩, h⟩

theorem falls_asleep (h : Reaping behaviour s₀ r s) :
    ∃ s', Reaped behaviour r s s' ∧ s'.Sleeps r ∧ Reaping behaviour s₀ r s' := by
  obtain ⟨next, sweep, ht⟩ := h.awake
  match sweep, ht with
  | none, ht => exact h.catches_up ht
  | some (evicted, closing), ht =>
    obtain ⟨s₁, hrun, h₁, ht₁, -⟩ := h.sweeps ht
    obtain ⟨s₂, hrun', hrest⟩ := h₁.catches_up ht₁
    exact ⟨s₂, hrun.trans hrun', hrest⟩

end Reaping

def SweptSince (s₀ s : Server) : Prop :=
  s.registry = s₀.registry.filter s₀.isConnected ∧
    ∀ c ∈ s₀.registry, c ∉ s.registry → s.HasClosed c

theorem Reaping.sweptSince (h : Reaping behaviour s₀ r s) (hsleeps : s.Sleeps r) :
    SweptSince s₀ s :=
  ⟨h.registry_eq hsleeps, fun c hc hnot => (h.gone c hc).resolve_left hnot⟩

theorem reaping_of_pass (hreach : Reachable behaviour s) (running : s.reaper = some r)
    (hs : s.step behaviour (.pass d) = some s₁) (hd : s.period ≤ d)
    (alone : ∀ t ∈ s.lock.queue, t = r)
    (free : ∀ (c : Nat) (x : Connection), c ∈ s.registry → s.connections[c]? = some x →
      x.phase = .disconnected → ¬ x.IsOccupied) : Reaping behaviour s r s₁ := by
  have hreach₁ : Reachable behaviour s₁ := .step _ hreach hs
  have hsound := sound_of_reachable hreach
  have present := present_of_step hs
  obtain rfl : { s with now := s.now + d } = s₁ := by simpa [step, present] using hs
  refine ⟨hreach₁, present, running, alone, ?_, ?_, rfl, fun c hc => .inl hc⟩
  · intro c x hc hx hphase
    exact ⟨hsound.connections hx, hphase, fun _ _ _ _ held hi =>
      free c x hc hx hphase ⟨_, _, _, held, hi⟩⟩
  · rintro ⟨next, ht, hlt⟩
    have hdue := (punctual_of_reachable hreach).due ht
    exact absurd (Nat.lt_of_lt_of_le hlt hdue) (by simp only; omega)

theorem step_of_asleep (ht : s.tasks[r]? = some (.reaper false next none)) (hnow : s.now < next) :
    s.step behaviour (.resume r) = none := by
  simp [step, resume, ht, awaited?, proceed, tick, Nat.not_le.mpr hnow]

theorem Meanwhile.asleep (hm : Meanwhile behaviour r s s')
    (ht : s.tasks[r]? = some (.reaper false next none)) (hnow : s.now < next) :
    s'.registry = s.registry ∧ s'.tasks[r]? = some (.reaper false next none) ∧ s'.now < next := by
  induction hm with
  | refl => exact ⟨rfl, ht, hnow⟩
  | tail _ hn ih =>
    obtain ⟨hreg, ht', hnow'⟩ := ih
    obtain ⟨a, hs, rfl | ⟨c, act, rfl⟩, -⟩ := hn
    · exact absurd ((step_of_asleep ht' hnow').symm.trans hs) nofun
    · obtain ⟨x, x', feed, -, -, rfl⟩ := on_of_step hs
      exact ⟨hreg, ht', hnow'⟩

theorem dead_connections_are_reaped (behaviour : Behaviour) {s : Server} {r : Nat}
    (reachable : Reachable behaviour s) (running : s.reaper = some r) :
    (∃ next sweep, s.tasks[r]? = some (.reaper false next sweep) ∧ next ≤ s.now + s.period) ∧
      (∀ d s₁, s.step behaviour (.pass d) = some s₁ → s.period ≤ d →
        (∀ t ∈ s.lock.queue, t = r) →
        (∀ c x, c ∈ s.registry → s.connections[c]? = some x → x.phase = .disconnected →
          ¬ x.IsOccupied) →
        ∀ s₂, Meanwhile behaviour r s₁ s₂ →
          (s₂.Sleeps r → SweptSince s s₂) ∧
            ∃ s₃, Reaped behaviour r s₂ s₃ ∧ s₃.Sleeps r ∧ SweptSince s s₃) ∧
      ∀ d s₁ next, s.step behaviour (.pass d) = some s₁ →
        s.tasks[r]? = some (.reaper false next none) → s.now + d < next →
        ∀ s₂, Meanwhile behaviour r s₁ s₂ →
          s₂.step behaviour (.resume r) = none ∧ s₂.registry = s.registry := by
  have punctual := punctual_of_reachable reachable
  refine ⟨?_, ?_, ?_⟩
  · obtain ⟨-, next, sweep, ht⟩ := punctual.running running
    exact ⟨next, sweep, ht, punctual.due ht⟩
  · intro d s₁ hs hd alone free s₂ hm
    have h₂ := (reaping_of_pass reachable running hs hd alone free).meanwhile hm
    obtain ⟨s₃, hrun, hsleeps, h₃⟩ := h₂.falls_asleep
    exact ⟨h₂.sweptSince, s₃, hrun, hsleeps, h₃.sweptSince hsleeps⟩
  · intro d s₁ next hs ht hnow s₂ hm
    obtain rfl : { s with now := s.now + d } = s₁ := by
      simpa [step, present_of_step hs] using hs
    obtain ⟨hreg, ht₂, hnow₂⟩ := hm.asleep ht hnow
    exact ⟨step_of_asleep ht₂ hnow₂, hreg⟩

def departing : List Action :=
  [.start 65123 true (.ok address), .resume 0, .resume 0, .connect 0 visitor, .begin (.accept 0),
    .acceptPeer 1, .resume 1, .connect 0 (visitorOn 10), .begin (.accept 0), .acceptPeer 2,
    .resume 2, .on 0 (.finish .finished), .on 0 .look, .on 0 .read]

def departed : Server :=
  (steps? quietObservers departing { config := {} }).getD { config := {} }

theorem departed_visitor_is_reaped :
    Reachable quietObservers departed ∧ departed.reaper = some 0 ∧ departed.registry = [0, 1] ∧
      ∃ s₁, departed.step quietObservers (.pass 2000) = some s₁ ∧
        ∃ s₂, Reaped quietObservers 0 s₁ s₂ ∧ s₂.registry = [1] ∧ s₂.HasClosed 0 := by
  have reachable : Reachable quietObservers departed := reachable_of_steps departing (.new {}) rfl
  obtain ⟨-, reaped, -⟩ := dead_connections_are_reaped quietObservers reachable rfl
  have free (c : Nat) (x : Connection) (hc : c ∈ departed.registry)
      (hx : departed.connections[c]? = some x) : ¬ x.IsOccupied := by
    rintro ⟨i, payload, point, held, -⟩
    have idle : departed.connections.all fun x => x.writing.isFree := rfl
    have hfree := List.all_eq_true.mp idle x (List.mem_of_getElem? hx)
    simp_all [Lock.isHeldBy, Lock.isFree]
  have alone (t : Nat) (ht : t ∈ departed.lock.queue) : t = 0 := absurd ht List.not_mem_nil
  obtain ⟨-, s₂, run, -, hreg, hclosed⟩ := reaped 2000 _ rfl (by decide) alone
    (fun c x hc hx _ => free c x hc hx) _ .refl
  have left : s₂.registry = [1] := hreg.trans rfl
  exact ⟨reachable, rfl, rfl, _, rfl, s₂, run, left,
    hclosed 0 (by decide) (by simp [left])⟩

end Server

end Fanout
