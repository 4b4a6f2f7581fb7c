import Fanout.Proofs.Client.Custody
import Fanout.Proofs.Observer.Delivery

namespace Fanout

namespace Connection

variable {x x' : Connection} {a : Action}

theorem Turn.listening_origin (ht : Turn x a x') (ha : a ≠ .listen)
    (hp : x'.phase = .listening) : x.phase = .listening := by
  cases ht with
  | strand | listen => exact absurd rfl ha
  | finishClose | quit | unwind | hangUp => exact absurd hp nofun
  | _ => exact hp

theorem listen_isConnected (x : Connection) : x.listen.1.isConnected = x.isConnected := by
  generalize hx : x.listen.1 = x'
  cases hx ▸ turn_listen x with
  | refuse => rfl
  | strand hp | listen _ hp =>
    simp only [isConnected, addCall, hp]
    rfl

theorem Sound.listens (h : x.Sound) (hc : x.cancelled = false) (hp : x.phase = .created) :
    x.listen.2 = none := by
  have hs := h.staged
  simp only [Staged, hp] at hs
  rw [listen_eq, startListen_kept hc hp hs.2.1]

end Connection

namespace Client

variable {behaviour : Behaviour} {s s' s₁ : Client} {c i : Nat} {job job' : ClientJob}
  {x x' : Connection} {a : Action}

def Intact (s : Client) : Prop :=
  ∀ ⦃c : Nat⦄ ⦃x : Connection⦄, s.connections[c]? = some x →
    ∀ i : Nat, x.calls[i]? ≠ some (.close .crashed)

theorem Intact.set (h : s.Intact) (hx : s.connections[c]? = some x)
    (hi : ∀ i : Nat, x'.calls[i]? = some (.close .crashed) →
      x.calls[i]? = some (.close .crashed)) :
    (s.setConnection c x').Intact := by
  intro d y hy i hcall
  rcases (getElem?_set_eq_some hx).mp hy with ⟨-, rfl⟩ | ⟨-, hold⟩
  · exact h hx i (hi i hcall)
  · exact h hold i hcall

theorem Intact.added (h : s.Intact) (hi : ∀ i : Nat, x.calls[i]? ≠ some (.close .crashed)) :
    (s.added x).Intact := by
  intro d y hy
  rcases getElem?_concat_eq_some.mp hy with ⟨-, rfl⟩ | hold
  · exact hi
  · exact h hold

theorem Intact.work (h : s.Intact) (hw : Work s job s₁ job') : s₁.Intact := by
  have unheard {stream : Stream} {settings : Settings} {time : Timestamp} {x : Connection}
      (opened : Connection.ofStream stream settings time = .ok x) (i : Nat) :
      x.calls[i]? ≠ some (.close .crashed) := by
    simp [(Connection.unheard_ofStream opened).calls]
  cases hw with
  | lose opened =>
    exact h.added fun i hi => unheard opened i (Connection.Turn.close.crashed_of_call rfl hi)
  | first opened =>
    exact h.added fun i hi => unheard opened i ((Connection.turn_listen _).crashed_of_call rfl hi)
  | supersede opened _ _ hy =>
    exact (h.added (unheard opened)).set hy fun i => Connection.Turn.close.crashed_of_call rfl
  | replaced _ hx => exact h.set hx fun i => (Connection.turn_listen _).crashed_of_call rfl
  | _ => exact h

theorem intact_of_reachable (h : Reachable behaviour s) (hr : ¬ Bus.Raises behaviour) :
    s.Intact := by
  induction h with
  | new config => intro c x hx; simp at hx
  | step a _ hs ih =>
    cases turn_of_step hs with
    | subscribe | pass => exact ih
    | begin _ hb =>
      cases hb with
      | send _ hx => exact ih.set hx fun i => (Connection.Turn.send _).crashed_of_call rfl
      | close _ hx => exact ih.set hx fun i => Connection.Turn.close.crashed_of_call rfl
      | _ => exact ih
    | work _ hw =>
      obtain ⟨job, s₁, job', -, hw, rfl⟩ := hw
      exact (ih.work hw : s₁.Intact)
    | on _ hx _ hstep =>
      refine ih.set hx fun i hi => (Connection.crashed_origin hstep hi).resolve_right ?_
      rintro ⟨y, signal, f, hraised⟩
      exact hr (Bus.deliver_raised hraised)

theorem raises_of_crashes (h : Reachable behaviour s) (hc : s.Crashes c i) :
    Bus.Raises behaviour := by
  by_contra hr
  obtain ⟨x, hx, he⟩ := hc
  exact intact_of_reachable h hr hx i (Connection.ending?_eq_crashed.mp he)

structure Reserved (s : Client) : Prop where
  unheard : ∀ {t c stale i : Nat} {address : String} {x : Connection},
    s.tasks[t]? = some (.replace address c stale i) → s.connections[c]? = some x →
    x.phase ≠ .listening
  apart : ∀ {t u c stale stale' i i' : Nat} {address address' : String},
    s.tasks[t]? = some (.replace address c stale i) →
    s.tasks[u]? = some (.replace address' c stale' i') → t = u

theorem Work.listening_origin (hw : Work s job s₁ job') (hx : s₁.connections[c]? = some x)
    (hp : x.phase = .listening) (hlt : c < s.connections.length) :
    (∃ y, s.connections[c]? = some y ∧ y.phase = .listening) ∨
      ∃ address stale i, job = .replace address c stale i := by
  have concat {y : Connection} (hy : (s.added y).connections[c]? = some x) :
      ∃ y, s.connections[c]? = some y ∧ y.phase = .listening := by
    rcases getElem?_concat_eq_some.mp hy with ⟨rfl, -⟩ | hold
    · exact absurd hlt (Nat.lt_irrefl _)
    · exact ⟨x, hold, hp⟩
  cases hw with
  | lose | first => exact .inl (concat hx)
  | @supersede _ _ _ y z stale _ _ _ hz =>
    rcases (getElem?_set_eq_some hz).mp hx with ⟨rfl, rfl⟩ | ⟨-, hold⟩
    · rcases getElem?_concat_eq_some.mp hz with ⟨rfl, -⟩ | hold
      · exact absurd hlt (Nat.lt_irrefl _)
      · exact .inl ⟨z, hold, hp⟩
    · exact .inl (concat hold)
  | @replaced address c' stale i _ y _ hy =>
    rcases (getElem?_set_eq_some hy).mp hx with ⟨rfl, rfl⟩ | ⟨-, hold⟩
    · exact .inr ⟨address, stale, i, rfl⟩
    · exact .inl ⟨x, hold, hp⟩
  | _ => exact .inl ⟨x, hx, hp⟩

theorem Work.isOver (hw : Work s job s₁ job') (ha : awaited? job = some (c, i)) :
    job'.isOver = true := by
  cases hw with
  | discarded | replaced | sent | closed | crash => rfl
  | _ => simp [awaited?] at ha

theorem Turn.listening_origin (ht : Turn behaviour s a s') (hx : s'.connections[c]? = some x)
    (hp : x.phase = .listening) (hlt : c < s.connections.length) :
    (∃ y, s.connections[c]? = some y ∧ y.phase = .listening) ∨
      ∃ (u stale i : Nat) (address : String) (job : ClientJob),
        s.tasks[u]? = some (.replace address c stale i) ∧ s'.tasks[u]? = some job ∧
          job.isOver = true := by
  have set {c' : Nat} {y y' : Connection} (hy : s.connections[c']? = some y)
      (hx : (s.connections.set c' y')[c]? = some x)
      (hphase : y'.phase = .listening → y.phase = .listening) :
      ∃ y, s.connections[c]? = some y ∧ y.phase = .listening := by
    rcases (getElem?_set_eq_some hy).mp hx with ⟨rfl, rfl⟩ | ⟨-, hold⟩
    · exact ⟨y, hy, hphase hp⟩
    · exact ⟨x, hold, hp⟩
  cases ht with
  | subscribe | pass => exact .inl ⟨x, hx, hp⟩
  | begin _ hb =>
    cases hb with
    | send _ hy | close _ hy => exact .inl (set hy hx id)
    | _ => exact .inl ⟨x, hx, hp⟩
  | @work u _ _ hw =>
    obtain ⟨job, s₁, job', hjob, hw, rfl⟩ := hw
    refine (hw.listening_origin hx hp hlt).imp_right ?_
    rintro ⟨address, stale, i, rfl⟩
    exact ⟨u, stale, i, address, job', hjob,
      (getElem?_set_eq_some (hw.frame.1 ▸ hjob)).mpr (.inl ⟨rfl, rfl⟩), hw.isOver rfl⟩
  | on _ hy hcall hstep =>
    refine .inl (set hy hx ((Connection.turn_of_step hstep).listening_origin ?_))
    rintro rfl
    exact absurd hcall nofun

namespace Reserved

theorem turn (h : s.Reserved) (hs : s.Sound) (ht : Turn behaviour s a s') : s'.Reserved where
  unheard {t c stale i address x} hjob hx hp := by
    rcases ht.task_origin hjob with hold | ⟨r, s₁, hb, -⟩ | ⟨before, s₁, -, hw, rfl⟩
    · rcases ht.listening_origin hx hp (hs.replacing hold) with
        ⟨y, hy, hyp⟩ | ⟨u, stale', i', address', job, hu, hu', hover⟩
      · exact h.unheard hold hy hyp
      · -- Whoever listens on his own connection now is done with it.
        obtain rfl := h.apart hold hu
        obtain rfl := Option.some.inj (hjob.symm.trans hu')
        exact absurd hover nofun
    · cases hb
    · cases hw with
      | supersede opened _ hslot hy =>
        have hne := Nat.ne_of_gt (hs.current hslot)
        obtain ⟨hc, -⟩ | ⟨-, hnew⟩ := (getElem?_set_eq_some hy).mp hx
        · exact hne hc
        · obtain rfl := Option.some.inj ((added_new s _).symm.trans hnew)
          simp [(Connection.unheard_ofStream opened).phase] at hp
  apart {t u c stale stale' i i' address address'} hjob hother := by
    by_contra hne
    have hnew {w : Nat} {stale stale' i i' : Nat} {address address' : String}
        {before : ClientJob} {s₁ : Client}
        (hw : Work s before s₁ (.replace address c stale i))
        (hold : s.tasks[w]? = some (.replace address' c stale' i')) : False :=
      absurd (hs.replacing hold) ((hw.replacing rfl).1 ▸ Nat.lt_irrefl _)
    rcases ht.task_origin hjob with hold | ⟨r, s₁, hb, -⟩ | ⟨before, s₁, hbefore, hw, rfl⟩
    · rcases ht.task_origin hother with hold' | ⟨r, s₁, hb, -⟩ | ⟨before, s₁, -, hw, -⟩
      · exact hne (h.apart hold hold')
      · cases hb
      · exact hnew hw hold
    · cases hb
    · rcases (getElem?_set_eq_some (hw.frame.1 ▸ hbefore)).mp hother with ⟨hu, -⟩ | ⟨-, hold⟩
      · exact hne hu.symm
      · exact hnew hw (hw.frame.1 ▸ hold)

end Reserved

theorem reserved_of_reachable (h : Reachable behaviour s) : s.Reserved := by
  induction h with
  | new config => exact ⟨by simp, by simp⟩
  | step a hr hs ih => exact ih.turn (sound_of_reachable hr) (turn_of_step hs)

end Client

end Fanout
