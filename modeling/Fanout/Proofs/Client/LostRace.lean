import Fanout.Proofs.Client.Installation
import Fanout.Proofs.Server.Run

namespace Fanout

namespace Connection

variable {σ : Type} {tell : Sink σ} {x x' : Connection} {a : Action} {s s' : σ}

theorem Late.reports (h : x.Late) (hs : x.step tell a s = some (x', s'))
    (ha : a.isCall = false) :
    s' = s ∨ a = .finishClose 0 ∧
      ∃ y : Connection, y.host = x.host ∧ s' = (tell y (.disconnected .closedLocally) s).1 := by
  obtain ⟨told, htold, hsignals, hfaces⟩ := reports_step hs
  have hr := h.refused.receiver
  have quiet (hnone : told.map Prod.snd = []) : s' = s := by
    rw [List.map_eq_nil_iff.mp hnone] at htold
    exact htold
  cases turn_of_step hs with
  | refuse | strand | listen | send | close => simp [Action.isCall] at ha
  | look hr' | quit _ hr' | deliver hr' | unwind _ hr' | hangUp _ _ hr' | wait hr' =>
    simp [hr] at hr'
  | finishClose hi =>
    obtain ⟨rfl, -⟩ := h.refused.call_eq hi
    have hfarewell : told.map Prod.snd = x.farewell .closedLocally :=
      (List.append_cancel_left hsignals).symm
    by_cases hp : x.phase = .disconnected
    · exact .inl (quiet (by rw [hfarewell, farewell, if_pos hp]))
    · rw [farewell, if_neg hp] at hfarewell
      obtain ⟨⟨y, signal⟩, rfl, rfl⟩ := List.map_eq_singleton_iff.mp hfarewell
      have hstream := (hfaces _ List.mem_cons_self).1
      exact .inr ⟨rfl, y, congrArg (fun stream => stream.peer.host) hstream, htold⟩
  | _ => exact .inl (quiet (List.append_right_eq_self.mp hsignals.symm))

end Connection

namespace Client

inductive Loses (s s' : Client) : Action → Prop
  | early {ip : String} {port : UInt16}
      (h : s'.tasks = s.tasks ++ [.done (.failed .alreadyConnected)]) :
      Loses s s' (.begin (.connect ip port))
  | overtaken {t c call : Nat} {stream : Stream} (h : s'.tasks[t]? = some (.discard c call)) :
      Loses s s' (.connected t stream)
  | closing {t c call : Nat} {act : Connection.Action}
      (h : s.tasks[t]? = some (.discard c call)) : Loses s s' (.on c act)
  | told {t c call : Nat} (h : s.tasks[t]? = some (.discard c call)) : Loses s s' (.resume t)

structure Undisturbed (s s' : Client) : Prop where
  slot : s'.slot = s.slot
  current : s'.current? = s.current?
  peer : s'.peer? = s.peer?
  connected : s'.isConnected = s.isConnected

/-- What the observers are told of a connect that has lost: nothing, or that its own connection,
which never was the current one, has been closed. -/
inductive Tells (past : List Nat) (s s' : Client) : Action → Prop
  | nothing {a : Action} (h : s'.feed = s.feed) : Tells past s s' a
  | closed {t c call : Nat} {x : Connection} (ht : s.tasks[t]? = some (.discard c call))
      (hx : s.connections[c]? = some x) (hc : c ∉ past)
      (h : s'.ledger.log = s.ledger.log ++
        [{ connection := c, host := x.host, signal := .disconnected .closedLocally }]) :
      Tells past s s' (.on c (.finishClose 0))

variable {behaviour : Behaviour} {s s' s₁ : Client} {t c call : Nat} {job job' : ClientJob}
  {x x' : Connection} {past past' : List Nat} {a : Action}

theorem undisturbed (hslot : s'.slot = s.slot)
    (hat : ∀ {c}, s.slot = some c → s'.connections[c]? = s.connections[c]?) :
    Undisturbed s s' := by
  have hcurrent : s'.current? = s.current? := by
    unfold current?
    rw [hslot]
    cases hs : s.slot with
    | none => rfl
    | some c => exact hat hs
  refine ⟨hslot, hcurrent, ?_, ?_⟩
  · rw [peer?, hcurrent, peer?]
  · rw [isConnected, hcurrent, isConnected]

theorem undisturbed_set (hne : s.slot ≠ some c) (hslot : s'.slot = s.slot)
    (hc : s'.connections = s.connections.set c x') : Undisturbed s s' := by
  refine undisturbed hslot fun {d} hd => ?_
  rw [hc, List.getElem?_set_ne]
  rintro rfl
  exact hne hd

theorem Work.lost (hw : Work s job s₁ (.discard c call)) : ∃ y, s₁ = s.added y := by
  cases hw with
  | lose => exact ⟨_, rfl⟩

theorem Work.of_discard (hw : Work s (.discard c call) s₁ job') : s₁ = s := by
  cases hw <;> rfl

theorem notice_of_tell (y : Connection) (signal : Signal) {feed : ClientFeed}
    (h : feed = (s.tell behaviour c y signal s.feed).1) :
    feed.raised.map notice =
      s.ledger.log ++ [{ connection := c, host := y.host, signal }] := by
  rw [h]
  exact (carries_tell behaviour s c).notes y signal s.feed

theorem Kept.loses (h : Kept past s) (hsound : s.Sound) (ht : Turn behaviour s a s')
    (hl : Loses s s' a) : Undisturbed s s' ∧ Tells past s s' a := by
  cases hl with
  | early =>
    cases ht with
    | begin ha hb =>
      obtain rfl := Action.begin.inj ha
      cases hb <;> exact ⟨undisturbed rfl fun _ => rfl, .nothing rfl⟩
    | work ha => simp [Action.task?] at ha
    | subscribe _ ha | on ha | pass _ ha => simp at ha
  | @overtaken t c call stream hjob =>
    cases ht with
    | work ha hw =>
      obtain ⟨job, s₁, job', hjob₀, hw, rfl⟩ := hw
      obtain rfl := Option.some.inj ha
      have hnew : (s₁.setTask t job').tasks[t]? = some job' :=
        (getElem?_set_eq_some (hw.frame.1 ▸ hjob₀)).mpr (.inl ⟨rfl, rfl⟩)
      obtain rfl := Option.some.inj (hnew.symm.trans hjob)
      obtain ⟨y, rfl⟩ := hw.lost
      refine ⟨undisturbed rfl fun hc => ?_, .nothing rfl⟩
      exact List.getElem?_append_left (hsound.current hc)
    | subscribe _ ha | begin ha | on ha | pass _ ha => simp at ha
  | @closing t c call act hjob =>
    cases ht with
    | @on c act x x' feed ha hx hcall hs =>
      obtain ⟨rfl, rfl⟩ := Action.on.inj ha
      have hc : c ∉ past := (h.tasks hjob).1
      refine ⟨undisturbed_set (fun hd => hc (h.slot hd)) rfl rfl, ?_⟩
      rcases (h.late hx hc).reports hs hcall with hsame | ⟨rfl, y, hhost, hfeed⟩
      · exact .nothing hsame
      · exact .closed hjob hx hc (hhost ▸ notice_of_tell y _ hfeed)
    | work ha => simp [Action.task?] at ha
    | subscribe _ ha | begin ha | pass _ ha => simp at ha
  | @told t c call hjob =>
    cases ht with
    | work ha hw =>
      obtain ⟨job, s₁, job', hjob₀, hw, rfl⟩ := hw
      obtain rfl := Option.some.inj ha
      obtain rfl := Option.some.inj (hjob.symm.trans hjob₀)
      obtain rfl := hw.of_discard
      exact ⟨undisturbed rfl fun _ => rfl, .nothing rfl⟩
    | subscribe _ ha | begin ha | on ha | pass _ ha => simp at ha

theorem lost_connects_tell_their_own_end (h : Installs behaviour past s) :
    (∀ c x, s.connections[c]? = some x →
      s.ledger.log.countP (Notice.isFarewellOf c) = (!x.isConnected).toNat ∧
        (c ∉ past → (s.ledger.log.filter fun e => e.connection == c).map Notice.signal =
          if x.isConnected then [] else [.disconnected .closedLocally])) ∧
      ∀ a s', s.step behaviour a = some s' → Loses s s' a →
        Undisturbed s s' ∧ Tells past s s' a := by
  have hsound := sound_of_reachable h.reachable
  have hlogged := (keeps_ledger behaviour).logged h.reachable
  refine ⟨fun c x hx => ⟨?_, fun hc => ?_⟩, ?_⟩
  · rw [hlogged.farewells hx (hsound.connections hx), Connection.isConnected]
    cases x.phase <;> rfl
  · rw [hlogged.told hx, (h.kept.late hx hc).signals, Connection.isConnected]
    cases x.phase <;> rfl
  · intro a s' hs hl
    exact h.kept.loses hsound (turn_of_step hs) hl

open Server (quietObservers visitor)

def installing? (behaviour : Behaviour) : List Action → List Nat × Client →
    Option (List Nat × Client)
  | [], p => some p
  | a :: as, (past, s) =>
      (s.step behaviour a).bind fun s' =>
        installing? behaviour as (past ++ installed s s', s')

theorem installs_of_installing {as : List Action} {p : List Nat × Client}
    (h : Installs behaviour past s) (hs : installing? behaviour as (past, s) = some p) :
    Installs behaviour p.1 p.2 := by
  induction as generalizing past s with
  | nil => exact Option.some.inj hs ▸ h
  | cons a as ih =>
    obtain ⟨s', h', hs⟩ := Option.bind_eq_some_iff.mp hs
    exact ih (h.step a h') hs

def race : List Action :=
  [.subscribe { onDisconnect := some 0 }, .begin (.connect "127.0.0.1" 9),
    .begin (.connect "127.0.0.1" 9), .connected 0 visitor, .connected 1 visitor,
    .on 1 (.obtainClosing 0), .on 1 (.halt 0 .halted)]

theorem lost_race_tells_its_own_end :
    ∃ (past : List Nat) (s s' : Client), Installs quietObservers past s ∧
      s.step quietObservers (.on 1 (.finishClose 0)) = some s' ∧
      Loses s s' (.on 1 (.finishClose 0)) ∧ Undisturbed s s' ∧
      Tells past s s' (.on 1 (.finishClose 0)) := by
  have closing : (installing? quietObservers race ([], { config := {} })).any (fun p =>
      p.2.tasks[1]? = some (.discard 1 0) ∧
        (p.2.step quietObservers (.on 1 (.finishClose 0))).isSome) = true := by
    decide +kernel
  obtain ⟨⟨past, s⟩, hrun, hp⟩ := (Option.any_eq_true _ _).mp closing
  obtain ⟨hjob, hsome⟩ := of_decide_eq_true hp
  obtain ⟨s', hs⟩ := Option.isSome_iff_exists.mp hsome
  have run : Installs quietObservers past s := installs_of_installing (.new {}) hrun
  have hloses : Loses s s' (.on 1 (.finishClose 0)) := .closing hjob
  obtain ⟨undisturbed, tells⟩ := (lost_connects_tell_their_own_end run).2 _ _ hs hloses
  exact ⟨past, s, s', run, hs, hloses, undisturbed, tells⟩

theorem lost_race_is_told :
    ∃ (past : List Nat) (s : Client), Installs quietObservers past s ∧ past = [0] ∧
      s.slot = some 0 ∧ s.isConnected = true ∧
      s.tasks = [.done .ok, .done (.failed .alreadyConnected)] ∧
      s.ledger.log = [⟨1, "127.0.0.1", .disconnected .closedLocally⟩] ∧
      s.feed.bus.heard 0 =
        [⟨0, 0, .disconnectionToAll "127.0.0.1" "Connection closed locally"⟩] := by
  have lost : (installing? quietObservers (race ++ [.on 1 (.finishClose 0), .resume 1])
      ([], { config := {} })).any (fun p => p.1 = [0] ∧ p.2.slot = some 0 ∧
        p.2.isConnected = true ∧ p.2.tasks = [.done .ok, .done (.failed .alreadyConnected)] ∧
        p.2.ledger.log = [⟨1, "127.0.0.1", .disconnected .closedLocally⟩] ∧
        p.2.feed.bus.heard 0 =
          [⟨0, 0, .disconnectionToAll "127.0.0.1" "Connection closed locally"⟩]) = true := by
    decide +kernel
  obtain ⟨⟨past, s⟩, hrun, hp⟩ := (Option.any_eq_true _ _).mp lost
  exact ⟨past, s, installs_of_installing (.new {}) hrun, of_decide_eq_true hp⟩

end Client

end Fanout
