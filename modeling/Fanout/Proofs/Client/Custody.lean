import Fanout.Proofs.Client.Connections
import Fanout.Proofs.Client.Soundness

namespace Fanout

namespace Connection

variable {x x' : Connection} {i : Nat} {call : Call}

theorem Path.isClose (hp : Path x x') (hi : x.calls[i]? = some call) :
    ∃ call', x'.calls[i]? = some call' ∧ call'.isClose = call.isClose := by
  refine hp.keeps (P := fun y => ∃ call', y.calls[i]? = some call' ∧ call'.isClose = call.isClose)
    ⟨call, hi, rfl⟩ ?_
  rintro y y' a ⟨before, hbefore, hkind⟩ ht
  rcases ht.call_onward hbefore with hsame | ⟨after, hafter, hm⟩
  · exact ⟨before, hsame, hkind⟩
  · exact ⟨after, hafter, hm.isClose.trans hkind⟩

theorem Reachable.exists_close (h : Reachable x) (hc : x.cancelled = true) :
    ∃ (i : Nat) (p : ClosePoint), x.calls[i]? = some (.close p) := by
  induction h with
  | opened opened => simp [(unheard_ofStream opened).cancelled] at hc
  | @step _ x x' _ _ tell a _ hs ih =>
    have ht := turn_of_step hs
    by_cases ha : a = .close
    · subst ha
      cases ht
      exact ⟨_, .queued, getElem?_concat_eq_some.mpr (.inl ⟨rfl, rfl⟩)⟩
    · obtain ⟨i, p, hi⟩ := ih ((ht.cancelled_eq ha).symm.trans hc)
      obtain ⟨call, hcall, hkind⟩ := (Path.step hs).isClose hi
      obtain ⟨p', rfl⟩ := Call.eq_close hkind
      exact ⟨i, p', hcall⟩

structure Silenced (x : Connection) : Prop where
  cancelled : x.cancelled = true
  receiver : x.isReceiving = false

theorem Silenced.turn {a : Action} (h : x.Silenced) (ht : Turn x a x') : x'.Silenced where
  cancelled := ht.cancelled_mono h.cancelled
  receiver := by
    have hr := h.receiver
    cases ht with
    | listen hc => simp [h.cancelled] at hc
    | look hr' | deliver hr' | wait hr' => simp [isReceiving, hr'] at hr
    | quit | unwind | hangUp => rfl
    | _ => exact hr

theorem Sound.silenced (h : x.Sound) (hs : x.Settles i) : x.Silenced := by
  obtain ⟨hphase, p, hi, -⟩ := hs
  exact ⟨h.cancelled hi, h.not_receiving hphase⟩

theorem Unheard.silenced (h : x.Unheard) (hs : x.Sound) : x.beginClose.Silenced :=
  ⟨rfl, by simp [isReceiving, Connection.beginClose, addCall, (h.receiver hs).1]⟩

structure WasClosed (x : Connection) : Prop where
  closed : ∃ (i : Nat) (p : ClosePoint), x.calls[i]? = some (.close p) ∧ p.isOver = true
  phase : x.phase = .disconnected
  isReleased : x.isReleased = true
  stopped : x.started = 0 ∨ x.receiver.hasEnded = true

theorem Sound.wasClosed (h : x.Sound) {p : ClosePoint} (hi : x.calls[i]? = some (.close p))
    (hp : p.isOver = true) : x.WasClosed where
  closed := ⟨i, p, hi, hp⟩
  phase := (h.shut hi hp).phase
  isReleased := by simp [isReleased, (h.shut hi hp).readHalf, (h.shut hi hp).writeHalf]
  stopped := (h.shut hi hp).receiver.imp And.right And.left

end Connection

namespace Client

def closes? : ClientJob → Option Nat
  | .discard c _ | .replace _ _ c _ | .close c _ => some c
  | _ => none

def Answers (xs : List Connection) : ClientJob → Prop
  | .send c i => ∃ x call, xs[c]? = some x ∧ x.calls[i]? = some call ∧ call.isClose = false
  | .discard c _ => ∃ x, xs[c]? = some x ∧ x.Silenced
  | .replace _ _ stale i => ∃ x, xs[stale]? = some x ∧ x.Settles i
  | _ => True

def Current (s : Client) : Prop :=
  ∀ ⦃c : Nat⦄ ⦃x : Connection⦄, s.connections[c]? = some x →
    (s.slot = some c ↔ x.cancelled = false)

variable {behaviour : Behaviour} {s s' s₁ : Client} {t c i : Nat} {job job' : ClientJob}
  {x x' : Connection} {a : Action} {xs ys : List Connection}

theorem listen_cancelled (x : Connection) : x.listen.1.cancelled = x.cancelled :=
  (Connection.turn_listen x).cancelled_eq nofun

theorem Current.set (h : s.Current) (hx : s.connections[c]? = some x)
    (hc : x'.cancelled = x.cancelled) : (s.setConnection c x').Current := by
  intro d y hy
  rcases (getElem?_set_eq_some hx).mp hy with ⟨rfl, rfl⟩ | ⟨-, hold⟩
  · rw [hc]
    exact h hx
  · exact h hold

theorem Current.below (h : s.Current) (hx : s.connections[c]? = some x) (hc : s.slot ≠ some c) :
    some s.connections.length = some c ↔ x.cancelled = false := by
  have hlt := (List.getElem?_eq_some_iff.mp hx).1
  rw [← h hx, iff_false_right hc, Option.some.injEq]
  exact Nat.ne_of_gt hlt

theorem Current.work (h : s.Current) (hs : s.Sound) (hw : Work s job s₁ job') : s₁.Current := by
  cases hw with
  | lose opened =>
    intro d y hy
    rcases getElem?_concat_eq_some.mp hy with ⟨rfl, rfl⟩ | hold
    · exact iff_of_false (fun hc => Nat.lt_irrefl _ (hs.current hc)) nofun
    · exact h hold
  | first opened hslot =>
    intro d y hy
    rcases getElem?_concat_eq_some.mp hy with ⟨rfl, rfl⟩ | hold
    · rw [listen_cancelled]
      exact iff_of_true rfl (Connection.unheard_ofStream opened).cancelled
    · exact h.below hold (by simp [hslot])
  | @supersede _ _ _ x z stale opened _ hslot hz =>
    intro d y hy
    rcases (getElem?_set_eq_some hz).mp hy with ⟨rfl, rfl⟩ | ⟨hne, hold⟩
    · have hlt := hs.current hslot
      exact iff_of_false (fun heq => Nat.ne_of_gt hlt (Option.some.inj heq)) nofun
    · rcases getElem?_concat_eq_some.mp hold with ⟨rfl, rfl⟩ | hold
      · exact iff_of_true rfl (Connection.unheard_ofStream opened).cancelled
      · exact h.below hold fun hc => hne (Option.some.inj (hc.symm.trans hslot))
  | replaced _ hx => exact h.set hx (listen_cancelled _)
  | _ => exact h

theorem Current.turn (h : s.Current) (hs : s.Sound) (ht : Turn behaviour s a s') :
    s'.Current := by
  cases ht with
  | subscribe | pass => exact h
  | begin _ hb =>
    cases hb with
    | send _ hx => exact h.set hx rfl
    | @close c x hslot hx =>
      intro d y hy
      rcases (getElem?_set_eq_some hx).mp hy with ⟨rfl, rfl⟩ | ⟨hne, hold⟩
      · exact iff_of_false nofun nofun
      · rw [← h hold, hslot]
        exact iff_of_false nofun fun heq => hne (Option.some.inj heq).symm
    | _ => exact h
  | work _ hw =>
    obtain ⟨job, s₁, job', -, hw, rfl⟩ := hw
    exact (h.work hs hw : s₁.Current)
  | @on c act x x' feed _ hx hcall hstep =>
    refine h.set hx ((Connection.turn_of_step hstep).cancelled_eq ?_)
    rintro rfl
    exact absurd hcall nofun

theorem current_of_reachable (h : Reachable behaviour s) : s.Current := by
  induction h with
  | new config => intro c x hx; simp at hx
  | step a hr hs ih => exact ih.turn (sound_of_reachable hr) (turn_of_step hs)

theorem Answers.flows (h : Answers xs job) (hf : Connection.Flows xs ys) : Answers ys job := by
  match job with
  | .send c i =>
    obtain ⟨x, call, hx, hcall, hkind⟩ := h
    obtain ⟨y, hy, hp⟩ := hf.onward hx
    obtain ⟨call', hcall', hkind'⟩ := hp.isClose hcall
    exact ⟨y, call', hy, hcall', hkind'.trans hkind⟩
  | .replace _ _ stale i =>
    obtain ⟨x, hx, hsettles⟩ := h
    obtain ⟨y, hy, hp⟩ := hf.onward hx
    exact ⟨y, hy, hp.keeps hsettles Connection.Settles.turn⟩
  | .discard .. =>
    obtain ⟨x, hx, hsilenced⟩ := h
    obtain ⟨y, hy, hp⟩ := hf.onward hx
    exact ⟨y, hy, hp.keeps hsilenced Connection.Silenced.turn⟩
  | .connect .. | .close .. | .done _ | .crashed => trivial

theorem isConnected_of_slot (hslot : s.slot = some c) (hx : s.connections[c]? = some x) :
    s.isConnected = x.isConnected := by
  simp [isConnected, current?, hslot, hx]

theorem Work.answers (hw : Work s job s₁ job') : Answers s₁.connections job' := by
  cases hw with
  | @supersede _ _ _ x y stale opened hc hslot hy =>
    have hdown : y.phase = .disconnected := by
      have hsame := isConnected_of_slot (s := s.added x) hslot hy
      simpa [Connection.isConnected] using hsame.symm.trans hc
    exact ⟨_, (getElem?_set_eq_some hy).mpr (.inl ⟨rfl, rfl⟩),
      Connection.settles_beginClose hdown⟩
  | lose opened =>
    exact ⟨_, added_new s _,
      (Connection.unheard_ofStream opened).silenced (Connection.sound_ofStream opened)⟩
  | _ => trivial

theorem Begins.answers {r : Request} (hb : Begins s r s₁ job) : Answers s₁.connections job := by
  cases hb with
  | @send payload c x _ hx =>
    exact ⟨_, _, (getElem?_set_eq_some hx).mpr (.inl ⟨rfl, rfl⟩),
      getElem?_concat_eq_some.mpr (.inl ⟨rfl, rfl⟩), rfl⟩
  | _ => trivial

theorem Begins.tasks {r : Request} (hb : Begins s r s₁ job) : s₁.tasks = s.tasks := by
  cases hb <;> rfl

theorem Turn.task_onward (ht : Turn behaviour s a s') (hjob : s.tasks[t]? = some job) :
    s'.tasks[t]? = some job ∨
      ∃ s₁ job', Work s job s₁ job' ∧ s' = s₁.setTask t job' ∧ s'.tasks[t]? = some job' := by
  cases ht with
  | subscribe | on | pass => exact .inl hjob
  | begin _ hb => exact .inl (getElem?_concat_eq_some.mpr (.inr (hb.tasks.symm ▸ hjob)))
  | @work u _ _ hw =>
    obtain ⟨before, s₁, after, hbefore, hw, rfl⟩ := hw
    by_cases htu : t = u
    · subst htu
      obtain rfl := Option.some.inj (hjob.symm.trans hbefore)
      exact .inr ⟨s₁, after, hw, rfl,
        (getElem?_set_eq_some (hw.frame.1 ▸ hbefore)).mpr (.inl ⟨rfl, rfl⟩)⟩
    · exact .inl ((getElem?_set_eq_some (hw.frame.1 ▸ hbefore)).mpr
        (.inr ⟨htu, hw.frame.1 ▸ hjob⟩))

theorem Turn.task_origin (ht : Turn behaviour s a s') (hjob : s'.tasks[t]? = some job) :
    s.tasks[t]? = some job ∨ (∃ r s₁, Begins s r s₁ job ∧ s' = s₁.addTask job) ∨
      ∃ before s₁, s.tasks[t]? = some before ∧ Work s before s₁ job ∧ s' = s₁.setTask t job := by
  cases ht with
  | subscribe | on | pass => exact .inl hjob
  | begin _ hb =>
    rcases getElem?_concat_eq_some.mp hjob with ⟨-, rfl⟩ | hold
    · exact .inr (.inl ⟨_, _, hb, rfl⟩)
    · exact .inl (hb.tasks ▸ hold)
  | work _ hw =>
    obtain ⟨before, s₁, after, hbefore, hw, rfl⟩ := hw
    rcases (getElem?_set_eq_some (hw.frame.1 ▸ hbefore)).mp hjob with ⟨rfl, rfl⟩ | ⟨-, hold⟩
    · exact .inr (.inr ⟨before, s₁, hbefore, hw, rfl⟩)
    · exact .inl (hw.frame.1 ▸ hold)

theorem answers_of_reachable (h : Reachable behaviour s) (ht : s.tasks[t]? = some job) :
    Answers s.connections job := by
  induction h generalizing t job with
  | new config => simp at ht
  | step a _ hs ih =>
    have hturn := turn_of_step hs
    rcases hturn.task_origin ht with hold | ⟨r, s₁, hb, rfl⟩ | ⟨before, s₁, -, hw, rfl⟩
    · exact (ih hold).flows hturn.flows
    · exact hb.answers
    · exact hw.answers

theorem Sound.exists_closer (h : s.Sound) (hr : Reachable behaviour s)
    (hx : s.connections[c]? = some x) {p : ClosePoint} (hi : x.calls[i]? = some (.close p))
    (hp : p.isOver = false) :
    ∃ (t : Nat) (job : ClientJob), s.tasks[t]? = some job ∧ closes? job = some c := by
  have hpending : Pending s.connections c i :=
    ⟨x, _, hx, hi, by cases p <;> simp_all [ClosePoint.isOver, Call.ending?]⟩
  obtain ⟨t, hawaits⟩ := h.attended.attended hpending
  obtain ⟨job, ht, ha⟩ := Option.bind_eq_some_iff.mp hawaits
  refine ⟨t, job, ht, ?_⟩
  have hanswers := answers_of_reachable hr ht
  cases job with
  | discard | replace | close =>
    obtain ⟨rfl, -⟩ := Prod.mk.inj (Option.some.inj ha)
    rfl
  | send =>
    obtain ⟨rfl, rfl⟩ := Prod.mk.inj (Option.some.inj ha)
    obtain ⟨y, call, hy, hcall, hkind⟩ := hanswers
    obtain rfl := Option.some.inj (hx.symm.trans hy)
    obtain rfl := Option.some.inj (hi.symm.trans hcall)
    cases hkind
  | connect | done | crashed => simp [awaited?] at ha

theorem closed_unless_owned (h : Reachable behaviour s) (hx : s.connections[c]? = some x)
    (hslot : s.slot ≠ some c) :
    (∃ (t : Nat) (job : ClientJob), s.tasks[t]? = some job ∧ closes? job = some c) ∨
      x.WasClosed := by
  have hs := sound_of_reachable h
  have hcancelled : x.cancelled = true := by
    simpa using (not_congr (current_of_reachable h hx)).mp hslot
  obtain ⟨i, p, hi⟩ := (connection_reachable h hx).exists_close hcancelled
  cases hp : p.isOver with
  | true => exact .inr ((hs.connections hx).wasClosed hi hp)
  | false => exact .inl (hs.exists_closer h hx hi hp)

end Client

end Fanout
