import Fanout.Proofs.Sending.Addressed
import Fanout.Proofs.Sending.Emission
import Fanout.Proofs.Server.Restart

namespace Fanout

theorem flatMap_filter_congr {α β : Type} {l : List α} {p q : α → Bool} {f : α → List β}
    (h : ∀ a ∈ l, p a ≠ q a → f a = []) : (l.filter p).flatMap f = (l.filter q).flatMap f := by
  induction l with
  | nil => rfl
  | cons a l ih =>
    have hrest := ih fun b hb => h b (List.mem_cons_of_mem a hb)
    by_cases hpq : p a = q a
    · cases hq : q a <;> simp [hpq, hq, hrest]
    · have ha := h a List.mem_cons_self hpq
      cases hp : p a <;> cases hq : q a <;> simp [hp, hq, ha, hrest]

theorem Connection.Turn.send_origin {c c' : Connection} {a : Action} {i : Nat} {payload : List UInt8}
    {point : SendPoint} (ht : Turn c a c') (ha : ∀ payload, a ≠ .send payload)
    (hi : c'.calls[i]? = some (.send payload point)) :
    ∃ point', c.calls[i]? = some (.send payload point') := by
  rcases ht.call_origin hi with hsame | ⟨rfl, hb⟩ | ⟨call, hold, hm⟩
  · exact ⟨point, hsame⟩
  · obtain ⟨hlt, -⟩ := List.getElem?_eq_some_iff.mp hi
    by_cases hcall : a.isCall = true
    · cases ht with
      | send payload => exact absurd rfl (ha payload)
      | refuse | strand | listen | close => simp [Connection.addCall, Connection.beginClose] at hi
      | _ => cases hcall
    · rw [ht.calls_length (Bool.eq_false_iff.mpr hcall)] at hlt
      exact absurd hlt (Nat.lt_irrefl _)
  · cases hm <;> exact ⟨_, hold⟩

namespace Server

variable {behaviour : Behaviour} {s s' s₁ : Server} {t u c : Nat} {job job' : Job} {a : Action}
  {x x' : Connection} {payload : List UInt8} {p : Nat × Nat}

theorem sends_of_set {act : Connection.Action} (hx : s.connections[c]? = some x)
    (ht : Connection.Turn x act x') (hact : ∀ payload, act ≠ .send payload)
    (hc : s'.connections = s.connections.set c x') (h : s'.Sends payload p) :
    s.Sends payload p := by
  obtain ⟨y, point, hy, hi⟩ := h
  rw [hc] at hy
  rcases (getElem?_set_eq_some hx).mp hy with ⟨heq, rfl⟩ | ⟨-, hold⟩
  · obtain ⟨point', hold⟩ := ht.send_origin hact hi
    exact ⟨x, point', heq ▸ hx, hold⟩
  · exact ⟨y, point, hold, hi⟩

theorem sends_of_begun {payload' : List UInt8} (hx : s.connections[c]? = some x)
    (hc : s'.connections = s.connections.set c (x.beginSend payload'))
    (h : s'.Sends payload p) : p = (c, x.calls.length) ∨ s.Sends payload p := by
  obtain ⟨y, point, hy, hi⟩ := h
  rw [hc] at hy
  rcases (getElem?_set_eq_some hx).mp hy with ⟨heq, rfl⟩ | ⟨-, hold⟩
  · rcases getElem?_concat_eq_some.mp hi with ⟨hlen, -⟩ | hold
    · exact .inl (Prod.ext heq hlen)
    · exact .inr ⟨x, point, heq ▸ hx, hold⟩
  · exact .inr ⟨y, point, hold, hi⟩

theorem sends_congr (hc : s'.connections = s.connections) (h : s'.Sends payload p) :
    s.Sends payload p := by
  rw [Sends, hc] at h
  exact h

theorem Work.silent (hw : Work s t job s₁ job') (hj : job.isSending = false) :
    job'.isSending = false ∧ ∀ {payload p}, s₁.Sends payload p → s.Sends payload p := by
  cases hw with
  | broadcastNext | broadcastEnd | broadcastFailed | findHost | missHost | sentTo | sent => cases hj
  | acceptPeer _ opened =>
    refine ⟨rfl, fun ⟨y, point, hy, hi⟩ => ?_⟩
    rcases getElem?_concat_eq_some.mp hy with ⟨-, rfl⟩ | hold
    · simp [(Connection.unheard_ofStream opened).calls] at hi
    · exact ⟨y, point, hold, hi⟩
  | enlist _ _ hx => exact ⟨rfl, sends_of_set hx (Connection.turn_listen _) nofun rfl⟩
  | refuse _ _ hx | closeNext _ _ hx => exact ⟨rfl, sends_of_set hx .close nofun rfl⟩
  | sweepNext sweeper _ hs _ hx =>
    refine ⟨by cases sweeper <;> rfl, sends_of_set hx .close nofun ?_⟩
    cases hs <;> rfl
  | sweepEnd sweeper _ hs =>
    refine ⟨by cases sweeper <;> rfl, sends_congr ?_⟩
    cases hs <;> rfl
  | @closeEnd listener => exact ⟨rfl, sends_congr (by cases listener <;> rfl)⟩
  | _ => exact ⟨rfl, id⟩

theorem Begins.silent {r : Request} (hb : Begins s r s₁ job) (hr : r.isSending = false) :
    job.isSending = false ∧ ∀ {payload p}, s₁.Sends payload p → s.Sends payload p := by
  have hun : s.unlisten.connections = s.connections := (unlisten_frame s).2.2.1
  cases hb with
  | broadcast | sendTo | send => cases hr
  | close _ hx => exact ⟨rfl, sends_of_set hx .close nofun rfl⟩
  | listen _ hx => exact ⟨rfl, sends_of_set hx (Connection.turn_listen _) nofun rfl⟩
  | stopReaper => exact ⟨rfl, sends_congr ((cancelReaper_frame s.unlisten _).2.2.1.trans hun)⟩
  | closeAll => exact ⟨rfl, sends_congr hun⟩
  | _ => exact ⟨rfl, id⟩

structure Silent (s : Server) (a : Action) : Prop where
  requests : ∀ r, a = .begin r → r.isSending = false
  tasks : ∀ (t : Nat) (job : Job), a.task? = some t → s.tasks[t]? = some job → job.isSending = false

theorem Turn.silent (ht : Turn behaviour s a s') (ha : s.Silent a) :
    (∀ (u : Nat) (job : Job), s'.tasks[u]? = some job → job.isSending = true →
      s.tasks[u]? = some job) ∧ ∀ payload p, s'.Sends payload p → s.Sends payload p := by
  have notReaper {job : Job} (hj : job.isSending = true) : job.isReaper = false := by
    cases job <;> first | rfl | cases hj
  have unspawned (s₀ : Server) {u : Nat} {job : Job} (hu : s₀.spawnReaper.tasks[u]? = some job)
      (hj : job.isSending = true) : s₀.tasks[u]? = some job := by
    rcases getElem?_concat_eq_some.mp hu with ⟨-, rfl⟩ | hold
    · cases hj
    · exact hold
  cases ht with
  | start | rest | subscribe | connect | pass => exact ⟨fun _ _ hu _ => hu, fun _ _ => id⟩
  | startReaping => exact ⟨fun _ _ => unspawned _, fun _ _ => id⟩
  | replaceReaper address =>
    refine ⟨fun u job hu hj => ?_, fun payload p => sends_congr (cancelReaper_frame _ _).2.2.1⟩
    exact unspawned (s.opened address) ((cancelReaper_kept (notReaper hj) _).mp hu) hj
  | begin heq hb =>
    have hr := ha.requests _ heq
    refine ⟨fun u job hu hj => ?_, fun payload p h => (hb.silent hr).2 h⟩
    rcases getElem?_concat_eq_some.mp hu with ⟨-, rfl⟩ | hold
    · rw [(hb.silent hr).1] at hj
      cases hj
    · exact (hb.kept (notReaper hj)).mp hold
  | drop =>
    exact ⟨fun u job hu hj => (drop_kept (notReaper hj)).mp hu,
      fun payload p => sends_congr (drop_frame s).2.2.1⟩
  | @work t _ htask hw =>
    obtain ⟨other, s₁, other', ht, hw, rfl⟩ := hw
    have hother := ha.tasks t other htask ht
    refine ⟨fun u job hu hj => ?_, fun payload p h => (hw.silent hother).2 h⟩
    rcases (hw.tasks_iff ht).mp hu with ⟨rfl, rfl⟩ | ⟨-, hold⟩
    · rw [(hw.silent hother).1] at hj
      cases hj
    · exact hold
  | on _ hx hcall hs =>
    refine ⟨fun _ _ hu _ => hu, fun payload p => ?_⟩
    refine sends_of_set hx (Connection.turn_of_step hs) ?_ rfl
    rintro payload rfl
    cases hcall

def SendFailed (s : Server) : Prop :=
  ∃ (t : Nat) (e : ServerError), s.tasks[t]? = some (.done (.failed e)) ∧
    (e.kind = .send ∨ e.kind = .lookup)

structure Echo where
  origin : Nat
  payload : List UInt8
  call : Option (Nat × Nat) := none

namespace Echo

def source (e : Echo) : Nat × List UInt8 :=
  (e.origin, e.payload)

def target? (e : Echo) : Option Nat :=
  e.call.map Prod.fst

def bytes (s : Server) (e : Echo) : List UInt8 :=
  e.call.elim [] (segmentOf s.connections)

def errand (s : Server) (e : Echo) : Job :=
  .sendTo (s.hostOf e.origin) e.payload e.call

structure Known (s : Server) (e : Echo) : Prop where
  origin : ∃ x, s.connections[e.origin]? = some x
  call : ∀ p, e.call = some p → s.Sends e.payload p ∧ s.hostOf p.1 = s.hostOf e.origin

structure Settled (s : Server) (e : Echo) : Prop where
  ended : ∀ c call, e.call = some (c, call) → ∃ failure, s.Returns c call failure
  sent : s.SendFailed ∨ ∃ p, e.call = some p ∧ s.Sent e.payload p

end Echo

/-- The echoes in their order; the one that a task is still busy with is the last. -/
def series (past : List Echo) (now : Option (Nat × Echo)) : List Echo :=
  past ++ (now.map Prod.snd).toList

/-- The echoes are the only sends, and none begins before the one before it is settled. -/
structure Echoes (s : Server) (past : List Echo) (now : Option (Nat × Echo)) : Prop where
  known : ∀ e ∈ series past now, e.Known s
  settled : ∀ e ∈ past, e.Settled s
  traced : ∀ {payload : List UInt8} {p : Nat × Nat}, s.Sends payload p →
    ∃ e ∈ series past now, e.call = some p
  wire : ∀ c, wireAt s.connections c =
    ((series past now).filter fun e => e.target? = some c).flatMap (Echo.bytes s)
  busy : ∀ {t : Nat} {e : Echo}, now = some (t, e) → s.tasks[t]? = some (e.errand s)
  alone : ∀ {t : Nat} {job : Job}, s.tasks[t]? = some job → job.isSending = true →
    ∃ e, now = some (t, e)

def Follows (s : Server) (past : List Echo) (t : Nat) (e : Echo) : Prop :=
  ∃ past' now', s.Echoes past' now' ∧
    (series past' now').map Echo.source = (series past (some (t, e))).map Echo.source ∧
    ∀ u e', now' = some (u, e') → u = t

variable {past : List Echo} {now : Option (Nat × Echo)} {e : Echo}

theorem SendFailed.turn (h : s.SendFailed) (hs : s.Sound) (ht : Turn behaviour s a s') :
    s'.SendFailed := by
  obtain ⟨t, e, hfailed, hkind⟩ := h
  rcases ht.task hs hfailed rfl with ⟨hsame, -⟩ | ⟨s₁, job', hw, -⟩
  · exact ⟨t, e, hsame, hkind⟩
  · exact absurd hw.not_over nofun

theorem Sends.hostOf (h : s.Sends payload p) (ht : Turn behaviour s a s') :
    s'.hostOf p.1 = s.hostOf p.1 := by
  obtain ⟨x, point, hx, -⟩ := h
  exact ht.hostOf hx

namespace Echo

theorem bytes_congr (h : ∀ p, e.call = some p →
    segmentOf s'.connections p = segmentOf s.connections p) : e.bytes s' = e.bytes s := by
  cases hcall : e.call with
  | none => simp [bytes, hcall]
  | some p => simpa [bytes, hcall] using h p hcall

theorem Known.hostOf (h : e.Known s) (ht : Turn behaviour s a s') :
    s'.hostOf e.origin = s.hostOf e.origin := by
  obtain ⟨x, hx⟩ := h.origin
  exact ht.hostOf hx

theorem Known.turn (h : e.Known s) (ht : Turn behaviour s a s') : e.Known s' where
  origin := by
    obtain ⟨x, hx⟩ := h.origin
    obtain ⟨x', hx', -⟩ := ht.flows.onward hx
    exact ⟨x', hx'⟩
  call p hp := by
    obtain ⟨hsends, hhost⟩ := h.call p hp
    exact ⟨hsends.turn ht, (hsends.hostOf ht).trans (hhost.trans (h.hostOf ht).symm)⟩

theorem Known.called {p : Nat × Nat} (h : e.Known s) (hsends : s.Sends e.payload p)
    (hhost : s.hostOf p.1 = s.hostOf e.origin) : Known s { e with call := some p } where
  origin := h.origin
  call _ hp := Option.some.inj hp ▸ ⟨hsends, hhost⟩

theorem Settled.turn (h : e.Settled s) (hs : s.Sound) (ht : Turn behaviour s a s') :
    e.Settled s' where
  ended c call hcall := by
    obtain ⟨failure, hr⟩ := h.ended c call hcall
    exact ⟨failure, hr.turn ht⟩
  sent := h.sent.imp (·.turn hs ht) fun ⟨p, hp, hsent⟩ => ⟨p, hp, hsent.turn ht⟩

end Echo

namespace Echoes

theorem now_known (h : s.Echoes past (some (t, e))) : e.Known s :=
  h.known e (by simp [series])

theorem writing (h : s.Echoes past now) {i written : Nat} (hx : s.connections[c]? = some x)
    (hi : x.calls[i]? = some (.send payload (.writing written))) :
    ∃ t e, now = some (t, e) ∧ e.call = some (c, i) ∧ ∀ e' ∈ past, e'.call ≠ some (c, i) := by
  have earlier : ∀ e' ∈ past, e'.call ≠ some (c, i) := by
    intro e' he' hcall
    obtain ⟨failure, y, hy, hend⟩ := (h.settled e' he').ended c i hcall
    obtain rfl := Option.some.inj (hx.symm.trans hy)
    simp [Connection.ending?, hi, Call.ending?] at hend
  obtain ⟨e, he, hcall⟩ := h.traced (p := (c, i)) ⟨x, _, hx, hi⟩
  rcases List.mem_append.mp he with hpast | hnow
  · exact absurd hcall (earlier e hpast)
  · obtain ⟨⟨t, e'⟩, rfl, rfl⟩ := Option.map_eq_some_iff.mp (Option.mem_toList.mp hnow)
    exact ⟨t, e', rfl, hcall, earlier⟩

theorem wire_turn (h : s.Echoes past now) (hreach : Reachable behaviour s')
    (ht : Turn behaviour s a s') (c : Nat) :
    wireAt s'.connections c =
      ((series past now).filter fun e => e.target? = some c).flatMap (Echo.bytes s') := by
  cases ht.emits hreach with
  | nothing hwire hsegments =>
    have hbytes : Echo.bytes s' = Echo.bytes s := funext fun e => Echo.bytes_congr fun p _ => hsegments p
    rw [hwire, h.wire, hbytes]
  | @bytes d i written x payload bytes hx hi hwire hwires hsegment hsegments =>
    obtain ⟨t, e, rfl, hcall, earlier⟩ := h.writing hx hi
    have hold : ∀ e' ∈ past, e'.bytes s' = e'.bytes s := fun e' he' =>
      Echo.bytes_congr fun p hp => hsegments p fun heq => earlier e' he' (heq ▸ hp)
    have hpast (c : Nat) : (past.filter fun e => e.target? = some c).flatMap (Echo.bytes s') =
        (past.filter fun e => e.target? = some c).flatMap (Echo.bytes s) :=
      List.flatMap_congr fun e' he' => hold e' (List.mem_filter.mp he').1
    have hlast := h.wire c
    have htarget : e.target? = some d := by simp [Echo.target?, hcall]
    simp only [series, Option.map_some, Option.toList_some, List.filter_append,
      List.flatMap_append, hpast] at hlast ⊢
    by_cases hc : c = d
    · subst hc
      simp only [List.filter_cons, htarget, decide_true, if_true, List.filter_nil,
        List.flatMap_singleton] at hlast ⊢
      rw [hwire, hlast, List.append_assoc]
      simp [Echo.bytes, hcall, hsegment]
    · have hne : d ≠ c := Ne.symm hc
      simpa [htarget, hne, hwires c hc] using hlast

theorem turn (h : s.Echoes past now) (hreach : Reachable behaviour s)
    (hs : s.step behaviour a = some s') (ha : s.Silent a) : s'.Echoes past now := by
  have hsound := sound_of_reachable hreach
  have ht := hsound.turn_of_step hs
  obtain ⟨tasks, sends⟩ := ht.silent ha
  refine ⟨fun e he => (h.known e he).turn ht, fun e he => (h.settled e he).turn hsound ht,
    fun hsends => h.traced (sends _ _ hsends), h.wire_turn (.step a hreach hs) ht, ?_,
    fun hu hj => h.alone (tasks _ _ hu hj) hj⟩
  intro t e hnow
  subst hnow
  have hbusy := h.busy rfl
  rw [Echo.errand, h.now_known.hostOf ht]
  rcases ht.task_onward hsound hbusy with ⟨job, hu, hkept, -⟩ | ⟨hown, -⟩
  · obtain rfl := hkept.eq rfl
    exact hu
  · cases ha.tasks t _ hown hbusy

section Work

variable (h : s.Echoes past (some (t, e))) (hjob : e.errand s = job) (hw : Work s t job s₁ job')
  (hreach : Reachable behaviour s) (hs : s.step behaviour a = some (s₁.moveTask t job job'))
include h hjob hw

theorem others {u : Nat} {other : Job} (hu : (s₁.moveTask t job job').tasks[u]? = some other)
    (hj : other.isSending = true) : u = t ∧ other = job' := by
  rcases (hw.tasks_iff (hjob ▸ h.busy rfl)).mp hu with hown | ⟨hut, hold⟩
  · exact hown
  · obtain ⟨e', he'⟩ := h.alone hold hj
    exact absurd (Prod.mk.inj (Option.some.inj he')).1.symm hut

include hreach hs

theorem settle (hj : job'.isSending = false) (hc : s₁.connections = s.connections)
    (hlast : e.Settled (s₁.moveTask t job job')) : (s₁.moveTask t job job').Follows past t e := by
  have hsound := sound_of_reachable hreach
  have ht := hsound.turn_of_step hs
  have hlist : series (past ++ [e]) none = series past (some (t, e)) := List.append_nil _
  refine ⟨past ++ [e], none, ⟨?_, ?_, ?_, ?_, nofun, ?_⟩, congrArg _ hlist, nofun⟩
  · rw [hlist]
    exact fun e' he' => (h.known e' he').turn ht
  · intro e' he'
    rcases List.mem_append.mp he' with hpast | hlast'
    · exact (h.settled e' hpast).turn hsound ht
    · exact List.mem_singleton.mp hlast' ▸ hlast
  · intro payload p hsends
    rw [hlist]
    exact h.traced (sends_congr hc hsends)
  · rw [hlist]
    exact h.wire_turn (.step a hreach hs) ht
  · intro u other hu hother
    rw [(h.others hjob hw hu hother).2, hj] at hother
    cases hother

theorem call (hcall : e.call = none) (hx : s.connections[c]? = some x)
    (hhost : s.hostOf c = s.hostOf e.origin)
    (hc : s₁.connections = s.connections.set c (x.beginSend e.payload))
    (hj : job' = .sendTo (s.hostOf e.origin) e.payload (some (c, x.calls.length))) :
    (s₁.moveTask t job job').Follows past t e := by
  have hsound := sound_of_reachable hreach
  have ht := hsound.turn_of_step hs
  have hknown := h.now_known.turn ht
  have hhosts : (s₁.moveTask t job job').hostOf e.origin = s.hostOf e.origin :=
    h.now_known.hostOf ht
  have hx' : (s₁.moveTask t job job').connections[c]? = some (x.beginSend e.payload) :=
    hc ▸ (getElem?_set_eq_some hx).mpr (.inl ⟨rfl, rfl⟩)
  have hnew : (x.beginSend e.payload).calls[x.calls.length]? = some (.send e.payload .queued) :=
    getElem?_concat_eq_some.mpr (.inl ⟨rfl, rfl⟩)
  refine ⟨past, some (t, { e with call := some (c, x.calls.length) }),
    ⟨?_, fun e' he' => (h.settled e' he').turn hsound ht, ?_, ?_, ?_, ?_⟩,
    by simp [series, Echo.source], fun u e' heq => (Prod.mk.inj (Option.some.inj heq)).1.symm⟩
  · intro e' he'
    rcases List.mem_append.mp he' with hpast | hlast
    · exact (h.known e' (List.mem_append_left _ hpast)).turn ht
    · obtain rfl := List.mem_singleton.mp hlast
      exact hknown.called ⟨_, _, hx', hnew⟩ ((ht.hostOf hx).trans (hhost.trans hhosts.symm))
  · intro payload p hsends
    rcases sends_of_begun hx hc hsends with rfl | hold
    · exact ⟨_, List.mem_append_right past (List.mem_singleton_self _), rfl⟩
    · obtain ⟨e', he', hp⟩ := h.traced hold
      rcases List.mem_append.mp he' with hpast | hlast
      · exact ⟨e', List.mem_append_left _ hpast, hp⟩
      · obtain rfl := List.mem_singleton.mp hlast
        rw [hcall] at hp
        cases hp
  · intro d
    have hnone : segmentOf (s₁.moveTask t job job').connections (c, x.calls.length) = [] :=
      (segmentOf_eq (p := (c, x.calls.length)) hx').trans (segmentAt_eq hnew)
    rw [h.wire_turn (.step a hreach hs) ht d]
    by_cases hd : c = d
    · subst hd
      simp [series, Echo.target?, Echo.bytes, hcall, hnone]
    · simp [series, Echo.target?, hcall, hd]
  · rintro u e' heq
    obtain ⟨rfl, rfl⟩ := Prod.mk.inj (Option.some.inj heq)
    refine (hw.moved_job (hjob ▸ h.busy rfl)).trans (congrArg some (hj.trans ?_))
    rw [← hhosts]
    rfl
  · intro u other hu hother
    exact ⟨_, by rw [(h.others hjob hw hu hother).1]⟩

end Work

theorem work (h : s.Echoes past (some (t, e))) (hreach : Reachable behaviour s)
    (hs : s.step behaviour a = some s') (ha : a.task? = some t) : s'.Follows past t e := by
  obtain ⟨s₁, job', hw, rfl⟩ := work_of_step (sound_of_reachable hreach) hs ha (h.busy rfl)
  have hmoved := hw.moved_job (h.busy rfl)
  have hknown := h.now_known
  generalize hjob : e.errand s = job at hw hmoved hs ⊢
  have works := id hw
  cases hw with
  | findHost held hf hx =>
    obtain ⟨rfl, rfl, hcall⟩ := Job.sendTo.inj hjob
    exact h.call hjob works hreach hs hcall hx (by simpa using List.find?_some hf) rfl rfl
  | missHost =>
    obtain ⟨-, -, hcall⟩ := Job.sendTo.inj hjob
    exact h.settle hjob works hreach hs rfl rfl
      ⟨fun c call hsome => by simp [hcall] at hsome, .inl ⟨t, _, hmoved, .inr rfl⟩⟩
  | @sentTo _ _ c call failure hr =>
    obtain ⟨-, rfl, hcall⟩ := Job.sendTo.inj hjob
    refine h.settle hjob works hreach hs rfl rfl ⟨fun d i hsome => ?_, ?_⟩
    · obtain ⟨rfl, rfl⟩ := Prod.mk.inj (Option.some.inj (hcall.symm.trans hsome))
      exact ⟨failure, hr⟩
    · cases failure with
      | none => exact .inr ⟨_, hcall, (hknown.call _ hcall).1.sent hreach hr⟩
      | some e => exact .inl ⟨t, _, hmoved, .inl rfl⟩
  | @crash _ c call hawait hc =>
    have hcall : e.call = some (c, call) := by
      rw [← hjob] at hawait
      exact hawait
    exact absurd hc (hknown.call _ hcall).1.uncrashed
  | sweepNext sweeper | sweepEnd sweeper => cases sweeper <;> cases hjob
  | _ => cases hjob

theorem begin_echo (h : s.Echoes past none) (hreach : Reachable behaviour s) {origin : Nat}
    {payload : List UInt8} (hx : s.connections[origin]? = some x)
    (hs : s.step behaviour (.begin (.sendTo (s.hostOf origin) payload)) = some s') :
    s'.Echoes past (some (s.tasks.length, { origin, payload })) := by
  have hsound := sound_of_reachable hreach
  have ht := hsound.turn_of_step hs
  obtain ⟨s₁, job, hb, rfl⟩ := begins_of_step hs
  cases hb
  refine ⟨fun e he => ?_, fun e he => (h.settled e he).turn hsound ht, fun hsends => ?_,
    fun c => ?_, ?_, fun hu hj => ?_⟩
  · rcases List.mem_append.mp he with hpast | hlast
    · exact (h.known e (List.mem_append_left _ hpast)).turn ht
    · obtain rfl := List.mem_singleton.mp hlast
      exact ⟨⟨x, hx⟩, nofun⟩
  · obtain ⟨e, he, hcall⟩ := h.traced hsends
    exact ⟨e, List.mem_append_left _ (by simpa [series] using he), hcall⟩
  · rw [h.wire_turn (.step _ hreach hs) ht c]
    simp [series, Echo.target?]
  · rintro t e heq
    obtain ⟨rfl, rfl⟩ := Prod.mk.inj (Option.some.inj heq)
    exact getElem?_concat_eq_some.mpr (.inl ⟨rfl, rfl⟩)
  · rcases getElem?_concat_eq_some.mp hu with ⟨rfl, -⟩ | hold
    · exact ⟨_, rfl⟩
    · obtain ⟨e, he⟩ := h.alone hold hj
      cases he

theorem target_host (h : s.Echoes past now) (he : e ∈ series past now)
    (hc : e.target? = some c) : s.hostOf c = s.hostOf e.origin := by
  obtain ⟨p, hp, rfl⟩ := Option.map_eq_some_iff.mp hc
  exact ((h.known e he).call p hp).2

theorem bytes_le (h : s.Echoes past now) (he : e ∈ series past now) :
    e.bytes s <+: e.payload := by
  cases hcall : e.call with
  | none => simp [Echo.bytes, hcall]
  | some p =>
    obtain ⟨x, point, hx, hi⟩ := ((h.known e he).call p hcall).1
    have hbytes : e.bytes s = (Call.send e.payload point).segment := by
      simp [Echo.bytes, hcall, segmentOf_eq hx, segmentAt_eq hi]
    rw [hbytes]
    cases point with
    | queued => exact List.nil_prefix
    | writing written | done written => exact List.take_prefix _ _

theorem sent (h : s.Echoes past now) (hfailed : ¬ s.SendFailed) (he : e ∈ past) :
    (∃ p, e.call = some p ∧ s.Sent e.payload p) ∧ e.bytes s = e.payload := by
  obtain ⟨p, hp, hsent⟩ := (h.settled e he).sent.resolve_left hfailed
  obtain ⟨x, hx, hi⟩ := id hsent
  refine ⟨⟨p, hp, hsent⟩, ?_⟩
  simp [Echo.bytes, hp, segmentOf_eq hx, segmentAt_eq hi, Call.segment]

theorem bytes_le_payloads (h : s.Echoes past now) (hfailed : ¬ s.SendFailed)
    (chosen : Echo → Bool) :
    ((series past now).filter chosen).flatMap (Echo.bytes s) <+:
      ((series past now).filter chosen).flatMap Echo.payload := by
  have hpast : (past.filter chosen).flatMap (Echo.bytes s) =
      (past.filter chosen).flatMap Echo.payload :=
    List.flatMap_congr fun e he => (h.sent hfailed (List.mem_filter.mp he).1).2
  cases now with
  | none => simp [series, hpast]
  | some p =>
    have hlast := h.bytes_le (e := p.2) (by simp [series])
    simp only [series, Option.map_some, Option.toList_some, List.filter_append,
      List.flatMap_append, hpast]
    refine (List.prefix_append_right_inj _).mpr ?_
    by_cases hp : chosen p.2 = true <;> simp [hp, hlast]

theorem bytes_at_host (h : s.Echoes past now) (host : String) :
    ((series past now).filter fun e => e.target?.any fun c => s.hostOf c == host).flatMap
        (Echo.bytes s) =
      ((series past now).filter fun e => s.hostOf e.origin == host).flatMap (Echo.bytes s) := by
  refine flatMap_filter_congr fun e he hne => ?_
  cases hcall : e.call with
  | none => simp [Echo.bytes, hcall]
  | some p =>
    have hhost := h.target_host (c := p.1) he (by simp [Echo.target?, hcall])
    simp [Echo.target?, hcall, hhost] at hne

theorem bytes_at_lone (h : s.Echoes past now)
    (lone : ∀ (d : Nat) (y : Connection), s.connections[d]? = some y →
      s.hostOf d = s.hostOf c → d = c) :
    ((series past now).filter fun e => e.target? = some c).flatMap (Echo.bytes s) =
      ((series past now).filter fun e => e.origin == c).flatMap (Echo.bytes s) := by
  refine flatMap_filter_congr fun e he hne => ?_
  cases hcall : e.call with
  | none => simp [Echo.bytes, hcall]
  | some p =>
    obtain ⟨⟨x, point, hx, -⟩, hhost⟩ := (h.known e he).call p hcall
    obtain ⟨y, hy⟩ := (h.known e he).origin
    have hsame : p.1 = c ↔ e.origin = c := by
      constructor
      · rintro rfl
        exact lone e.origin y hy hhost.symm
      · rintro rfl
        exact lone p.1 x hx hhost
    refine absurd ?_ hne
    rw [Bool.eq_iff_iff]
    simp [Echo.target?, hcall, hsame]

end Echoes

end Server

end Fanout
