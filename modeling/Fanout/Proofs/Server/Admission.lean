import Fanout.Proofs.Connection.Lifecycle
import Fanout.Proofs.Server.LiveCount
import Fanout.Proofs.Server.Overtaken

namespace Fanout

theorem Phase.Leads.begun {p p' : Phase} (h : p.Leads p') : p' ≠ .created := by
  cases h <;> nofun

namespace Server

/-- What a call of `accept` has obtained, and what its own steps and those of the connection that it
has opened have added to the registry and to the count. -/
structure Share where
  stream : Option Stream := none
  connection : Option Nat := none
  entries : List Nat := []
  live : Int := 0
  -- Whatever was registered before one of these steps has kept its place.
  onlyAdds : Bool := true
  deriving DecidableEq, Repr

def offered? (s : Server) : Action → Option Stream
  | .acceptPeer t =>
      match s.tasks[t]? with
      | some (.accept _ _ l) => s.listeners[l]?.bind fun listener => listener.pending.head?
      | _ => none
  | _ => none

def opens? (s s' : Server) : Option Nat :=
  if s.connections.length < s'.connections.length then some s.connections.length else none

namespace Share

def owns (share : Share) (t : Nat) (s : Server) : Action → Bool
  | .begin _ => s.tasks.length == t
  | .on c _ => share.connection == some c
  | a => a.task? == some t

def after (share : Share) (s : Server) (a : Action) (s' : Server) : Share where
  stream := share.stream.or (s.offered? a)
  connection := share.connection.or (opens? s s')
  entries := share.entries ++ s'.registry.drop s.registry.length
  live := share.live + (s'.live - s.live)
  onlyAdds := share.onlyAdds && decide (s.registry <+: s'.registry)

def follow (behaviour : Behaviour) (t : Nat) : List Action → Server → Share → Share
  | [], _, share => share
  | a :: as, s, share =>
      match s.step behaviour a with
      | some s' =>
          follow behaviour t as s' (if share.owns t s a then share.after s a s' else share)
      | none => share

/-- The call has let go of all that it has obtained, and has left nothing behind. -/
structure Returned (share : Share) (s : Server) : Prop where
  onlyAdds : share.onlyAdds = true
  entries : share.entries = []
  live : share.live = 0
  dropped : ∀ stream, share.stream = some stream → share.connection = none →
    ∃ reason, stream.ending = some (.failed reason)
  closed : ∀ c, share.connection = some c → s.IsShut c

end Share

inductive Refuses (secs : Nat) : ServerError → Prop
  | closed : Refuses secs .listenerClosed
  | expired : Refuses secs (.acceptTimeout secs)
  | failed (reason : String) : Refuses secs (.accept reason)

inductive Stands (behaviour : Behaviour) (secs : Nat) (s : Server) : Share → Job → Prop
  | waiting {deadline : Option Nat} {l : Nat} :
      Stands behaviour secs s {} (.accept secs deadline l)
  | queued {stream : Stream} {l c : Nat} :
      Stands behaviour secs s { stream := some stream, connection := some c } (.register l c)
  | refusing {stream : Stream} {c : Nat} {live : Int}
      (hlive : live = (s.isConnected c).toNat) :
      Stands behaviour secs s { stream := some stream, connection := some c, live }
        (.refuse c 0 .listenerClosed)
  | failed {share : Share} {e : ServerError} (he : Refuses secs e) (h : share.Returned s) :
      Stands behaviour secs s share (.done (.failed e))
  | crashed {share : Share} (hr : Bus.Raises behaviour) (h : share.Returned s) :
      Stands behaviour secs s share .crashed
  | accepted {stream : Stream} {c : Nat} {live : Int} {x : Connection}
      (hx : s.connections[c]? = some x) (hp : x.phase ≠ .created)
      (hlive : live = (s.isConnected c).toNat) :
      Stands behaviour secs s
        { stream := some stream, connection := some c, entries := [c], live }
        (.done (.accepted c))

variable {behaviour : Behaviour} {s s' s₁ : Server} {t u c l secs : Nat} {job job' : Job}
  {a : Action} {x x' : Connection} {share : Share} {as : List Action}

theorem uncalled_of_step {act : Connection.Action} (h : s.step behaviour (.on c act) = some s') :
    act.isCall = false := by
  unfold step at h
  split at h
  · exact absurd h nofun
  · dsimp only at h
    split at h
    · exact absurd h nofun
    · rename_i hcall
      exact Bool.eq_false_iff.mpr hcall

theorem acceptPeer_eq_some (h : s.acceptPeer t = some s') :
    ∃ secs deadline l stream,
      s.tasks[t]? = some (.accept secs deadline l) ∧
        s.offered? (.acceptPeer t) = some stream ∧ s'.feed = s.feed ∧ s'.registry = s.registry ∧
        ((∃ reason failure, stream.ending = some (.failed failure) ∧
            s'.connections = s.connections ∧
            s'.tasks = s.tasks.set t (.done (.failed (.accept reason)))) ∨
          ∃ x : Connection, x.Unheard ∧ s'.connections = s.connections ++ [x] ∧
            s'.tasks = s.tasks.set t (.register l s.connections.length)) := by
  unfold acceptPeer at h
  split at h
  · rename_i secs deadline l ht
    obtain ⟨listener, hl, h⟩ := Option.bind_eq_some_iff.mp h
    split at h
    · cases h
    · rename_i stream pending hpending
      refine ⟨secs, deadline, l, stream, ht, ?_⟩
      have hoffered : s.offered? (.acceptPeer t) = some stream := by
        simp [offered?, ht, hl, hpending]
      cases opened : Connection.ofStream stream s.config.settings (.ofMillis s.now) with
      | error reason =>
        simp only [changeListener, opened, Option.some.injEq] at h
        obtain ⟨failure, hending⟩ : ∃ failure, stream.ending = some (.failed failure) := by
          unfold Connection.ofStream at opened
          split at opened
          · rename_i failure hending
            exact ⟨failure, hending⟩
          · cases opened
        subst h
        exact ⟨hoffered, rfl, rfl, .inl ⟨reason, failure, hending, rfl, rfl⟩⟩
      | ok x =>
        simp only [changeListener, opened, Option.some.injEq] at h
        subst h
        exact ⟨hoffered, rfl, rfl, .inr ⟨x, Connection.unheard_ofStream opened, rfl, rfl⟩⟩
  · cases h

theorem waited_in_vain (h : s.acceptClosed t = some s' ∨ s.acceptExpired t = some s' ∨
      ∃ reason, s.acceptFailed t reason = some s') :
    ∃ secs deadline l e, s.tasks[t]? = some (.accept secs deadline l) ∧ Refuses secs e ∧
      s' = s.setTask t (.done (.failed e)) := by
  rcases h with h | h | ⟨reason, h⟩
  · unfold acceptClosed at h
    split at h
    · rename_i ht
      split at h
      · exact ⟨_, _, _, _, ht, .closed, (Option.some.inj h).symm⟩
      · exact absurd h nofun
    · exact absurd h nofun
  · unfold acceptExpired at h
    split at h
    · rename_i ht
      obtain ⟨listener, -, h⟩ := Option.bind_eq_some_iff.mp h
      split at h
      · exact ⟨_, _, _, _, ht, .expired, (Option.some.inj h).symm⟩
      · exact absurd h nofun
    · exact absurd h nofun
  · unfold acceptFailed at h
    split at h
    · rename_i ht
      exact ⟨_, _, _, _, ht, .failed reason, (Option.some.inj h).symm⟩
    · exact absurd h nofun

theorem Work.of_registering (hw : Work s t (.register l c) s₁ job') :
    s.lock.isHeldBy t = true ∧ ∃ x, s.connections[c]? = some x ∧ s₁.live = s.live + 1 ∧
      (s₁.connections = s.connections.set c x.listen.1 ∧ s₁.registry = s.registry ++ [c] ∧
          job' = .done (.accepted c) ∨
        s₁.connections = s.connections.set c x.beginClose ∧ s₁.registry = s.registry ∧
          job' = .refuse c x.calls.length .listenerClosed) := by
  generalize hj : Job.register l c = job at hw
  cases hw with
  | enlist held _ hx =>
    obtain ⟨rfl, rfl⟩ := Job.register.inj hj
    exact ⟨held, _, hx, rfl, .inl ⟨rfl, rfl, rfl⟩⟩
  | refuse held _ hx =>
    obtain ⟨rfl, rfl⟩ := Job.register.inj hj
    exact ⟨held, _, hx, rfl, .inr ⟨rfl, rfl, rfl⟩⟩
  | sweepNext sweeper | sweepEnd sweeper => cases sweeper <;> simp [Sweeper.job] at hj
  | crash ha => simp [← hj, awaited?] at ha
  | _ => simp at hj

theorem Work.of_refusing {call : Nat} {e : ServerError} (hw : Work s t (.refuse c call e) s₁ job') :
    s₁ = s ∧ ((∃ failure, s.Returns c call failure) ∧ job' = .done (.failed e) ∨
      s.Crashes c call ∧ job' = .crashed) := by
  generalize hj : Job.refuse c call e = job at hw
  cases hw with
  | refused hr =>
    obtain ⟨rfl, rfl, rfl⟩ := Job.refuse.inj hj
    exact ⟨rfl, .inl ⟨⟨_, hr⟩, rfl⟩⟩
  | sweepNext sweeper | sweepEnd sweeper => cases sweeper <;> simp [Sweeper.job] at hj
  | crash ha hc =>
    subst hj
    obtain ⟨rfl, rfl⟩ := Prod.mk.inj (Option.some.inj ha)
    exact ⟨rfl, .inr ⟨hc, rfl⟩⟩
  | _ => simp at hj

theorem Begins.face_eq {r : Request} (hb : Begins s r s₁ job) :
    s₁.connections.map face = s.connections.map face := by
  cases hb with
  | send _ _ hx => exact face_set hx (face_call (.send _) rfl)
  | close _ hx => exact face_set hx (face_call .close rfl)
  | listen _ hx => exact face_set hx (face_call (Connection.turn_listen _) rfl)
  | @stopReaper r hr =>
    have hconns := (cancelReaper_frame s.unlisten r).2.2.1
    exact congrArg _ (hconns.trans (unlisten_frame s).2.2.1)
  | closeAll => exact congrArg _ (unlisten_frame s).2.2.1
  | _ => rfl

theorem Turn.isConnected_eq (h : s.Sound) (ht : Turn behaviour s a s')
    (hx : s.connections[c]? = some x) (ha : ∀ act, a ≠ .on c act) :
    s'.isConnected c = s.isConnected c := by
  have same (hconns : s'.connections = s.connections) : s'.isConnected c = s.isConnected c := by
    simp only [isConnected, hconns]
  cases ht with
  | start | startReaping | rest | subscribe | connect | pass => rfl
  | replaceReaper => exact same (cancelReaper_frame _ _).2.2.1
  | drop => exact same (drop_frame s).2.2.1
  | begin _ hb => exact isConnected_of_face hb.face_eq c
  | work _ hw =>
    obtain ⟨job, s₁, job', hjob, hw, rfl⟩ := hw
    cases hw.reckons h hjob with
    | quiet _ _ hf | count _ _ _ hf => exact isConnected_of_face hf c
    | accept _ _ _ hconns =>
      obtain ⟨hlt, -⟩ := List.getElem?_eq_some_iff.mp hx
      simp only [isConnected, moveTask, hconns, List.getElem?_append_left hlt]
  | @on d act _ _ _ ha' =>
    have hne : d ≠ c := by
      rintro rfl
      exact ha act ha'
    simp only [isConnected, setConnection, List.getElem?_set_ne hne]

theorem IsShut.turn (h : s.IsShut c) (ht : Turn behaviour s a s') : s'.IsShut c := by
  obtain ⟨x, hx, hshut⟩ := h
  obtain ⟨x', hx', hsteps⟩ := ht.changes.onward hx
  refine ⟨x', hx', ?_⟩
  cases hsteps with
  | same heq => exact heq ▸ hshut
  | call hturn => exact hshut.turn hturn
  | act _ hs => exact hshut.turn (Connection.turn_of_step hs)

theorem IsShut.isConnected (h : s.IsShut c) : s.isConnected c = false := by
  obtain ⟨x, hx, hshut⟩ := h
  exact (isConnected_eq_false hx).mpr hshut.phase

theorem Turn.begun (ht : Turn behaviour s a s') (hx : s.connections[c]? = some x)
    (hp : x.phase ≠ .created) : ∃ x', s'.connections[c]? = some x' ∧ x'.phase ≠ .created := by
  have turned {x' : Connection} {b : Connection.Action} (hturn : Connection.Turn x b x') :
      x'.phase ≠ .created := by
    rcases hturn.leads with hsame | hleads
    · exact hsame ▸ hp
    · exact hleads.begun
  obtain ⟨x', hx', hsteps⟩ := ht.changes.onward hx
  refine ⟨x', hx', ?_⟩
  cases hsteps with
  | same heq => exact heq ▸ hp
  | call hturn => exact turned hturn
  | act _ hs => exact turned (Connection.turn_of_step hs)

theorem Share.after_eq (hlen : s'.connections.length = s.connections.length)
    (hreg : s'.registry = s.registry) (hlive : s'.live = s.live) :
    share.after s a s' = { share with stream := share.stream.or (s.offered? a) } := by
  simp [Share.after, opens?, hlen, hreg, hlive]

theorem Share.after_counted {new : List Nat} (hlen : s'.connections.length = s.connections.length)
    (hreg : s'.registry = s.registry ++ new) (hlive : s'.live = s.live + 1) :
    share.after s (.resume u) s' =
      { share with entries := share.entries ++ new, live := share.live + 1 } := by
  have hone : (s'.live : Int) - s.live = 1 := by omega
  simp [Share.after, opens?, offered?, hlen, hreg, hone]

theorem Share.Returned.turn (h : share.Returned s) (ht : Turn behaviour s a s') :
    share.Returned s' :=
  ⟨h.onlyAdds, h.entries, h.live, h.dropped, fun c hc => (h.closed c hc).turn ht⟩

theorem stands_begun (hs : s.step behaviour (.begin (.accept secs)) = some s') :
    ∃ job, s'.tasks[s.tasks.length]? = some job ∧
      Stands behaviour secs s' (({} : Share).after s (.begin (.accept secs)) s') job := by
  have hbegun : s.beginAccept secs = s' := by
    unfold step at hs
    split at hs
    · exact absurd hs nofun
    · dsimp only at hs
      split at hs
      · exact absurd hs nofun
      · exact Option.some.inj hs
  have fresh (job : Job) : (s.addTask job).tasks[s.tasks.length]? = some job :=
    getElem?_concat_eq_some.mpr (.inl ⟨rfl, rfl⟩)
  have hafter (job : Job) :
      ({} : Share).after s (.begin (.accept secs)) (s.addTask job) = {} :=
    Share.after_eq rfl rfl rfl
  subst hbegun
  unfold beginAccept
  split
  · refine ⟨_, fresh _, ?_⟩
    rw [hafter]
    exact .failed .closed ⟨rfl, rfl, rfl, nofun, nofun⟩
  · refine ⟨_, fresh _, ?_⟩
    rw [hafter]
    exact .waiting

namespace Stands

theorem other (hsound : s.Sound) (ht : s.tasks[t]? = some job)
    (h : Stands behaviour secs s share job) (hturn : Turn behaviour s a s')
    (ha : share.owns t s a = false) :
    s'.tasks[t]? = some job ∧ Stands behaviour secs s' share job := by
  have hreaper : job.isReaper = false := by cases h <;> rfl
  have htask : a.task? ≠ some t := by
    intro htask
    cases a <;> simp_all [Action.task?, Share.owns]
  have away {c : Nat} (hc : share.connection = some c) (act : Connection.Action) :
      a ≠ .on c act := by
    rintro rfl
    simp [Share.owns, hc] at ha
  have hsame : s'.tasks[t]? = some job := by
    obtain ⟨job', ht', hkept, -⟩ := hturn.kept hsound htask ht
    exact hkept.eq hreaper ▸ ht'
  refine ⟨hsame, ?_⟩
  cases h with
  | waiting => exact .waiting
  | queued => exact .queued
  | refusing hlive =>
    obtain ⟨x, hx⟩ := hsound.own_known ht rfl
    exact .refusing (by rw [hlive, hturn.isConnected_eq hsound hx (away rfl)])
  | failed he hret => exact .failed he (hret.turn hturn)
  | crashed hr hret => exact .crashed hr (hret.turn hturn)
  | accepted hx hp hlive =>
    obtain ⟨x', hx', hp'⟩ := hturn.begun hx hp
    exact .accepted hx' hp' (by rw [hlive, hturn.isConnected_eq hsound hx (away rfl)])

theorem live_of_on {act : Connection.Action} (h : s.Sound) (htallied : s.Tallied)
    (hs : s.step behaviour (.on c act) = some s') :
    (s'.live : Int) - s.live = (s'.isConnected c).toNat - (s.isConnected c).toNat ∧
      s'.registry = s.registry ∧ s'.tasks = s.tasks ∧
      s'.connections.length = s.connections.length := by
  obtain ⟨x, x', feed, hx, hstep, rfl⟩ := on_of_step hs
  obtain ⟨told, entries, hreported⟩ := h.reported hx (uncalled_of_step hs) hstep
  refine ⟨?_, rfl, rfl, List.length_set⟩
  have hlive := htallied.live
  have htally := hreported.tally_eq
  have hlive' := hreported.live_eq
  have hbalance := hreported.balance
  rw [hreported.isConnected_before, hreported.isConnected_after]
  omega

theorem on {act : Connection.Action} (hreach : Reachable behaviour s)
    (ht : s.tasks[t]? = some job) (h : Stands behaviour secs s share job)
    (hs : s.step behaviour (.on c act) = some s') (hc : share.connection = some c) :
    s'.tasks[t]? = some job ∧ Stands behaviour secs s' (share.after s (.on c act) s') job := by
  have hsound := sound_of_reachable hreach
  have hturn := hsound.turn_of_step hs
  obtain ⟨hlive, hreg, htasks, hlen⟩ := live_of_on hsound (tallied_of_reachable hreach) hs
  have ht' : s'.tasks[t]? = some job := htasks ▸ ht
  have hafter : share.after s (.on c act) s' =
      { share with live := share.live + (s'.live - s.live) } := by
    simp [Share.after, opens?, hlen, hreg, offered?]
  refine ⟨ht', ?_⟩
  rw [hafter]
  have returned (hret : share.Returned s) :
      ({ share with live := share.live + (s'.live - s.live) } : Share).Returned s' := by
    have hdown := (hret.closed c hc).isConnected
    have hdown' := ((hret.closed c hc).turn hturn).isConnected
    refine ⟨hret.onlyAdds, hret.entries, ?_, hret.dropped, fun d hd => (hret.closed d hd).turn hturn⟩
    simp [hlive, hdown, hdown', hret.live]
  cases h with
  | waiting => exact absurd hc nofun
  | @queued stream l d =>
    obtain rfl := Option.some.inj hc
    have up {s : Server} (hs : s.Sound) (ht : s.tasks[t]? = some (.register l d)) :
        s.isConnected d = true := by
      obtain ⟨x, hx, hun⟩ := hs.fits ht
      simp [isConnected, hx, Connection.isConnected, hun.phase]
    have hsame : (s'.live : Int) - s.live = 0 := by
      rw [hlive, up hsound ht, up (hsound.turn hturn) ht']
      rfl
    rw [hsame]
    exact .queued
  | refusing hlive₀ =>
    obtain rfl := Option.some.inj hc
    refine .refusing ?_
    simp only [hlive₀, hlive]
    omega
  | failed he hret => exact .failed he (returned hret)
  | crashed hr hret => exact .crashed hr (returned hret)
  | accepted hx hp hlive₀ =>
    obtain rfl := Option.some.inj hc
    obtain ⟨x', hx', hp'⟩ := hturn.begun hx hp
    refine .accepted hx' hp' ?_
    simp only [hlive₀, hlive]
    omega

theorem acceptPeer (ht : s.tasks[t]? = some job) (h : Stands behaviour secs s share job)
    (hs : s.acceptPeer t = some s') :
    ∃ job', s'.tasks[t]? = some job' ∧
      Stands behaviour secs s' (share.after s (.acceptPeer t) s') job' := by
  obtain ⟨secs', deadline, l, stream, ht', hoffered, hfeed, hreg, hcases⟩ := acceptPeer_eq_some hs
  obtain rfl := Option.some.inj (ht'.symm.trans ht)
  have hlive : s'.live = s.live := congrArg ServerFeed.live hfeed
  cases h with
  | waiting =>
    rcases hcases with ⟨reason, failure, hending, hconns, htasks⟩ | ⟨x, hun, hconns, htasks⟩
    · refine ⟨.done (.failed (.accept reason)), ?_, ?_⟩
      · rw [htasks]
        exact (getElem?_set_eq_some ht).mpr (.inl ⟨rfl, rfl⟩)
      · rw [Share.after_eq (congrArg List.length hconns) hreg hlive, hoffered]
        refine .failed (.failed reason) ⟨rfl, rfl, rfl, ?_, nofun⟩
        intro stream' heq _
        obtain rfl := Option.some.inj heq
        exact ⟨failure, hending⟩
    · have hafter : ({} : Share).after s (.acceptPeer t) s' =
          { stream := some stream, connection := some s.connections.length } := by
        simp [Share.after, opens?, hconns, hreg, hlive, hoffered]
      refine ⟨.register l s.connections.length, ?_, ?_⟩
      · rw [htasks]
        exact (getElem?_set_eq_some ht).mpr (.inl ⟨rfl, rfl⟩)
      · rw [hafter]
        exact .queued

theorem in_vain (ht : s.tasks[t]? = some job) (h : Stands behaviour secs s share job)
    (hs : s.acceptClosed t = some s' ∨ s.acceptExpired t = some s' ∨
      ∃ reason, s.acceptFailed t reason = some s') (ha : s.offered? a = none) :
    ∃ job', s'.tasks[t]? = some job' ∧
      Stands behaviour secs s' (share.after s a s') job' := by
  obtain ⟨secs', deadline, l, e, ht', he, rfl⟩ := waited_in_vain hs
  obtain rfl := Option.some.inj (ht'.symm.trans ht)
  cases h with
  | waiting =>
    refine ⟨_, (getElem?_set_eq_some ht).mpr (.inl ⟨rfl, rfl⟩), ?_⟩
    have hafter : ({} : Share).after s a (s.setTask t (.done (.failed e))) =
        { ({} : Share) with stream := s.offered? a } := Share.after_eq rfl rfl rfl
    rw [hafter, ha]
    exact .failed he ⟨rfl, rfl, rfl, nofun, nofun⟩

theorem resume (hreach : Reachable behaviour s) (ht : s.tasks[t]? = some job)
    (h : Stands behaviour secs s share job) (hs : s.resume t = some s') :
    ∃ job', s'.tasks[t]? = some job' ∧
      Stands behaviour secs s' (share.after s (.resume t) s') job' := by
  have hsound := sound_of_reachable hreach
  obtain ⟨job₀, s₁, job', ht', hw, heq⟩ := works_resume hsound hs
  obtain rfl := Option.some.inj (ht'.symm.trans ht)
  have hnew : s'.tasks[t]? = some job' := heq ▸ hw.moved_job ht
  have hconns' : s'.connections = s₁.connections := by rw [heq]; rfl
  have hreg' : s'.registry = s₁.registry := by rw [heq]; rfl
  have hlive' : s'.live = s₁.live := by rw [heq]; rfl
  refine ⟨job', hnew, ?_⟩
  cases h with
  | waiting => simp [Server.resume, ht, awaited?, proceed] at hs
  | @queued stream l c =>
    obtain ⟨-, x, hx, hlive, hcases⟩ := hw.of_registering
    obtain ⟨y, hy, hun⟩ := hsound.fits ht
    obtain rfl := Option.some.inj (hx.symm.trans hy)
    have set_at {y : Connection} (hset : s₁.connections = s.connections.set c y) :
        s'.connections[c]? = some y ∧ s'.connections.length = s.connections.length := by
      rw [hconns', hset]
      exact ⟨(getElem?_set_eq_some hx).mpr (.inl ⟨rfl, rfl⟩), List.length_set⟩
    have up {y : Connection} (hat : s'.connections[c]? = some y) (hp : y.phase ≠ .disconnected) :
        (1 : Int) = (s'.isConnected c).toNat := by
      have hup : s'.isConnected c = true := by
        simpa [isConnected, hat, Connection.isConnected] using hp
      rw [hup]
      rfl
    rcases hcases with ⟨hset, hreg, rfl⟩ | ⟨hset, hreg, rfl⟩
    · obtain ⟨-, hphase⟩ := hun.listen (hsound.connections hx)
      obtain ⟨hat, hlen⟩ := set_at hset
      rw [Share.after_counted hlen (hreg'.trans hreg) (hlive'.trans hlive)]
      exact .accepted hat (by simp [hphase]) (up hat (by simp [hphase]))
    · obtain ⟨hat, hlen⟩ := set_at hset
      have hzero : x.calls.length = 0 := by simp [hun.calls]
      have hphase : x.beginClose.phase = .created := hun.phase
      have hsame : s'.registry = s.registry ++ [] := by simp [hreg', hreg]
      rw [Share.after_counted hlen hsame (hlive'.trans hlive), hzero]
      exact .refusing (up hat (by simp [hphase]))
  | @refusing stream c live hlive =>
    obtain ⟨rfl, hcases⟩ := hw.of_refusing
    have gone {x : Connection} {ending : CallEnd} (hx : s₁.connections[c]? = some x)
        (he : x.ending? 0 = some ending) :
        Share.Returned { stream := some stream, connection := some c, live } s' := by
      have hshut : s₁.IsShut c := hsound.shut_of_refusal ht hx (by simp [he])
      refine ⟨rfl, rfl, by simp [hlive, hshut.isConnected], by simp, fun d hd => ?_⟩
      obtain rfl := Option.some.inj hd
      rw [IsShut, hconns']
      exact hshut
    rw [Share.after_eq (congrArg List.length hconns') hreg' hlive']
    rcases hcases with ⟨⟨failure, x, hx, he⟩, rfl⟩ | ⟨hcrashes, rfl⟩
    · exact .failed .closed (gone hx he)
    · obtain ⟨x, hx, he⟩ := id hcrashes
      exact .crashed (raises_of_crashes hreach hcrashes) (gone hx he)
  | failed => exact absurd rfl hw.undone
  | crashed => exact absurd rfl hw.uncrashed
  | accepted => exact absurd rfl hw.undone

theorem own (hreach : Reachable behaviour s) (ht : s.tasks[t]? = some job)
    (h : Stands behaviour secs s share job) (hs : s.step behaviour a = some s')
    (ha : share.owns t s a = true) :
    ∃ job', s'.tasks[t]? = some job' ∧
      Stands behaviour secs s' (share.after s a s') job' := by
  obtain ⟨hlt, -⟩ := List.getElem?_eq_some_iff.mp ht
  have hpresent := present_of_step hs
  cases a with
  | begin r => exact absurd (beq_iff_eq.mp ha) (Nat.ne_of_gt hlt)
  | on c act =>
    exact ⟨job, h.on hreach ht hs (beq_iff_eq.mp ha)⟩
  | acceptPeer u =>
    obtain rfl := Option.some.inj (beq_iff_eq.mp ha)
    simp only [step, hpresent] at hs
    exact h.acceptPeer ht hs
  | acceptClosed u =>
    obtain rfl := Option.some.inj (beq_iff_eq.mp ha)
    simp only [step, hpresent] at hs
    exact h.in_vain (a := .acceptClosed u) ht (.inl hs) rfl
  | acceptExpired u =>
    obtain rfl := Option.some.inj (beq_iff_eq.mp ha)
    simp only [step, hpresent] at hs
    exact h.in_vain (a := .acceptExpired u) ht (.inr (.inl hs)) rfl
  | acceptFailed u reason =>
    obtain rfl := Option.some.inj (beq_iff_eq.mp ha)
    simp only [step, hpresent] at hs
    exact h.in_vain (a := .acceptFailed u reason) ht (.inr (.inr ⟨reason, hs⟩)) rfl
  | resume u =>
    obtain rfl := Option.some.inj (beq_iff_eq.mp ha)
    simp only [step, hpresent] at hs
    exact h.resume hreach ht hs
  | start | subscribe | drop | connect | pass => exact absurd (beq_iff_eq.mp ha) nofun

theorem run (hreach : Reachable behaviour s) (ht : s.tasks[t]? = some job)
    (h : Stands behaviour secs s share job) (hs : steps? behaviour as s = some s') :
    ∃ job', s'.tasks[t]? = some job' ∧
      Stands behaviour secs s' (Share.follow behaviour t as s share) job' := by
  -- By induction on the steps of the run.
  induction as generalizing s share job with
  | nil =>
    obtain rfl := Option.some.inj hs
    exact ⟨job, ht, h⟩
  | cons a as ih =>
    obtain ⟨s₁, hstep, hs⟩ := Option.bind_eq_some_iff.mp hs
    have hreach₁ : Reachable behaviour s₁ := .step a hreach hstep
    simp only [Share.follow, hstep]
    cases ha : share.owns t s a with
    | true =>
      obtain ⟨job₁, ht₁, h₁⟩ := h.own hreach ht hstep ha
      simpa using ih hreach₁ ht₁ h₁ hs
    | false =>
      have hsound := sound_of_reachable hreach
      obtain ⟨ht₁, h₁⟩ := h.other hsound ht (hsound.turn_of_step hstep) ha
      simpa using ih hreach₁ ht₁ h₁ hs

theorem returned (h : Stands behaviour secs s share job) (hover : job.isOver = true)
    (hnot : ∀ c, job ≠ .done (.accepted c)) :
    share.Returned s ∧
      ((∃ e, Refuses secs e ∧ job = .done (.failed e)) ∨ job = .crashed ∧ Bus.Raises behaviour) := by
  cases h with
  | waiting | queued | refusing => exact absurd hover nofun
  | failed he hret => exact ⟨hret, .inl ⟨_, he, rfl⟩⟩
  | crashed hr hret => exact ⟨hret, .inr ⟨rfl, hr⟩⟩
  | accepted => exact absurd rfl (hnot _)

theorem admitted (h : Stands behaviour secs s share (.done (.accepted c))) :
    share.onlyAdds = true ∧ share.connection = some c ∧ share.entries = [c] ∧
      ∃ x, s.connections[c]? = some x ∧
        (x.phase = .listening ∧ share.live = 1 ∨ x.phase = .disconnected ∧ share.live = 0) := by
  cases h with
  | @accepted _ _ _ x hx hp hlive =>
    refine ⟨rfl, rfl, rfl, x, hx, ?_⟩
    simp only [isConnected, hx, Connection.isConnected] at hlive
    cases hphase : x.phase with
    | created => exact absurd hphase hp
    | listening => exact .inl ⟨rfl, by rw [hlive, hphase]; rfl⟩
    | disconnected => exact .inr ⟨rfl, by rw [hlive, hphase]; rfl⟩

end Stands

theorem accept_is_all_or_nothing (behaviour : Behaviour) {s s' : Server} {secs : Nat}
    {as : List Action} {share : Share} (reachable : Reachable behaviour s)
    (run : steps? behaviour (.begin (.accept secs) :: as) s = some s')
    (followed : share =
      Share.follow behaviour s.tasks.length (.begin (.accept secs) :: as) s {}) :
    ∃ job, s'.tasks[s.tasks.length]? = some job ∧
      (job.isOver = true → (∀ c, job ≠ .done (.accepted c)) →
        share.Returned s' ∧
          ((∃ e, Refuses secs e ∧ job = .done (.failed e)) ∨
            job = .crashed ∧ Bus.Raises behaviour)) ∧
      ∀ c, job = .done (.accepted c) →
        share.onlyAdds = true ∧ share.connection = some c ∧ share.entries = [c] ∧
          ∃ x, s'.connections[c]? = some x ∧
            (x.phase = .listening ∧ share.live = 1 ∨
              x.phase = .disconnected ∧ share.live = 0) := by
  obtain ⟨s₁, begun, run⟩ := Option.bind_eq_some_iff.mp run
  obtain ⟨job₁, ht₁, h₁⟩ := stands_begun begun
  obtain ⟨job, ht, h⟩ := h₁.run (.step _ reachable begun) ht₁ run
  have hshare : share = Share.follow behaviour s.tasks.length as s₁
      (({} : Share).after s (.begin (.accept secs)) s₁) := by
    simp [followed, Share.follow, begun, Share.owns]
  subst hshare
  refine ⟨job, ht, h.returned, ?_⟩
  rintro c rfl
  exact h.admitted

def visited : Server :=
  (steps? quietObservers [.start 65123 false (.ok address), .connect 0 visitor]
    { config := {} }).getD { config := {} }

def overtaking : List Action :=
  [.begin (.accept 0), .acceptPeer 0, .begin .shutdown, .resume 0, .on 0 (.obtainClosing 0),
    .on 0 (.halt 0 .halted), .on 0 (.finishClose 0), .resume 0]

def unvisited : Server :=
  (steps? quietObservers overtaking visited).getD visited

theorem overtaken_accept_leaves_nothing :
    Reachable quietObservers visited ∧
      steps? quietObservers overtaking visited = some unvisited ∧
      unvisited.tasks[0]? = some (.done (.failed .listenerClosed)) ∧
      ∃ share, share = Share.follow quietObservers 0 overtaking visited {} ∧
        share.connection = some 0 ∧ share.Returned unvisited := by
  have reachable : Reachable quietObservers visited :=
    reachable_of_steps [.start 65123 false (.ok address), .connect 0 visitor] (.new {}) rfl
  have run : steps? quietObservers overtaking visited = some unvisited := rfl
  obtain ⟨job, hjob, returned, -⟩ :=
    accept_is_all_or_nothing quietObservers reachable run rfl
  obtain rfl := Option.some.inj hjob
  exact ⟨reachable, run, rfl, _, rfl, rfl, (returned rfl nofun).1⟩

end Server

end Fanout
