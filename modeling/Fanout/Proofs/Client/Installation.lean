import Fanout.Proofs.Client.Ledger

namespace Fanout

namespace Connection

variable {x x' : Connection} {a : Action}

/-- A connection that was open before its client learned that another one had come first: it never
listens, and its only call closes it. -/
structure Late (x : Connection) : Prop where
  refused : x.Refused
  signals : x.signals = if x.phase = .disconnected then [.disconnected .closedLocally] else []

theorem Unheard.late (h : x.Unheard) (hs : x.Sound) (hx : x.signals = []) : x.beginClose.Late where
  refused := h.beginClose hs
  signals := by
    have hp : x.beginClose.phase ≠ .disconnected := by
      simp [Connection.beginClose, addCall, h.phase]
    rw [if_neg hp]
    exact hx

theorem Late.turn (h : x.Late) (ht : Turn x a x') (ha : a.isCall = false) : x'.Late where
  refused := h.refused.turn ht ha
  signals := by
    have hr := h.refused.receiver
    have hsignals := h.signals
    cases ht with
    | refuse | strand | listen | send | close => simp [Action.isCall] at ha
    | look hr' | quit _ hr' | deliver hr' | unwind _ hr' | hangUp _ _ hr' | wait hr' =>
      simp [hr] at hr'
    | finishClose =>
      simp only [hsignals, farewell]
      by_cases hp : x.phase = .disconnected <;> simp [hp]
    | _ => exact hsignals

end Connection

namespace Client

def installed (s s' : Client) : List Nat :=
  if s'.slot = s.slot then [] else s'.slot.toList

/-- The runs of a client with the connections that have been the current one, earliest first. -/
inductive Installs (behaviour : Behaviour) : List Nat → Client → Prop
  | new (config : ClientConfig) : Installs behaviour [] { config }
  | step {past : List Nat} {s s' : Client} (a : Action) (h : Installs behaviour past s)
      (hs : s.step behaviour a = some s') : Installs behaviour (past ++ installed s s') s'

def Accounted (past : List Nat) (n : Nat) : ClientJob → Prop
  | .discard c _ => c ∉ past ∧ c < n
  | .replace _ c _ _ => c ∈ past
  | _ => True

structure Kept (past : List Nat) (s : Client) : Prop where
  slot : ∀ {c : Nat}, s.slot = some c → c ∈ past
  known : ∀ {c : Nat}, c ∈ past → c < s.connections.length
  late : ∀ {c : Nat} {x : Connection}, s.connections[c]? = some x → c ∉ past → x.Late
  tasks : ∀ {t : Nat} {job : ClientJob}, s.tasks[t]? = some job →
    Accounted past s.connections.length job

variable {behaviour : Behaviour} {s s' s₁ : Client} {t c n n' : Nat} {job job' : ClientJob}
  {x x' y : Connection} {past new : List Nat} {a : Action}

theorem Installs.reachable (h : Installs behaviour past s) : Reachable behaviour s := by
  induction h with
  | new config => exact .new config
  | step a _ hs ih => exact .step a ih hs

theorem installed_eq_nil (h : s'.slot = s.slot ∨ s'.slot = none) : installed s s' = [] := by
  unfold installed
  split
  · rfl
  · rename_i hne
    rw [h.resolve_left hne]
    rfl

theorem installed_new (h : s.Sound) (hs : s'.slot = some s.connections.length) :
    installed s s' = [s.connections.length] := by
  have hne : s'.slot ≠ s.slot := by
    intro heq
    exact Nat.lt_irrefl _ (h.current (heq ▸ hs))
  rw [installed, if_neg hne, hs]
  rfl

theorem Accounted.mono (h : Accounted past n job) (hn : n ≤ n') (hnew : ∀ c ∈ new, n ≤ c) :
    Accounted (past ++ new) n' job := by
  match job with
  | .discard c _ =>
    refine ⟨fun hc => ?_, Nat.lt_of_lt_of_le h.2 hn⟩
    rcases List.mem_append.mp hc with hold | hc
    · exact h.1 hold
    · exact Nat.not_le_of_lt h.2 (hnew c hc)
  | .replace _ c _ _ => exact List.mem_append_left _ h
  | .connect .. | .send .. | .close .. | .done _ | .crashed => trivial

theorem kept_new (config : ClientConfig) : Kept [] { config } where
  slot := nofun
  known := nofun
  late := by simp
  tasks := by simp

namespace Kept

theorem goes_on (h : Kept past s) (hlen : s.connections.length ≤ s'.connections.length)
    (hnew : ∀ c ∈ new, s.connections.length ≤ c ∧ c < s'.connections.length)
    (hslot : ∀ {c : Nat}, s'.slot = some c → c ∈ past ++ new)
    (hlate : ∀ {c : Nat} {x : Connection}, s'.connections[c]? = some x → c ∉ past ++ new → x.Late)
    (htasks : ∀ {t : Nat} {job : ClientJob}, s'.tasks[t]? = some job →
      s.tasks[t]? = some job ∨ Accounted (past ++ new) s'.connections.length job) :
    Kept (past ++ new) s' where
  slot := hslot
  known hc := by
    rcases List.mem_append.mp hc with hold | hc
    · exact Nat.lt_of_lt_of_le (h.known hold) hlen
    · exact (hnew _ hc).2
  late := hlate
  tasks ht := (htasks ht).elim
    (fun hold => (h.tasks hold).mono hlen fun c hc => (hnew c hc).1) id

theorem set_installed (h : Kept past s) (hc : c ∈ past) {d : Nat}
    (hx : (s.connections.set c x')[d]? = some x) (hd : d ∉ past) : x.Late := by
  by_cases heq : d = c
  · exact absurd (heq ▸ hc) hd
  · rw [List.getElem?_set_ne (Ne.symm heq)] at hx
    exact h.late hx hd

theorem concat_late (h : Kept past s) (hy : y.Late) {d : Nat}
    (hx : (s.connections ++ [y])[d]? = some x) (hd : d ∉ past) : x.Late := by
  rcases getElem?_concat_eq_some.mp hx with ⟨-, rfl⟩ | hold
  · exact hy
  · exact h.late hold hd

theorem concat_installed (h : Kept past s) {d : Nat}
    (hx : (s.connections ++ [y])[d]? = some x) (hd : d ∉ past ++ [s.connections.length]) :
    x.Late := by
  rw [List.mem_append, List.mem_singleton] at hd
  rcases getElem?_concat_eq_some.mp hx with ⟨rfl, -⟩ | hold
  · exact absurd (.inr rfl) hd
  · exact h.late hold fun hin => hd (.inl hin)

theorem fresh (h : Kept past s) : s.connections.length ∉ past :=
  fun hin => Nat.lt_irrefl _ (h.known hin)

theorem works (h : Kept past s) (hsound : s.Sound) (hw : s.Works t s') :
    Kept (past ++ installed s s') s' := by
  obtain ⟨job, s₁, job', ht, hw, rfl⟩ := hw
  obtain ⟨htasks, -⟩ := hw.frame
  have hlen : s.connections.length ≤ (s₁.setTask t job').connections.length := hw.length_le
  have tasks {new : List Nat}
      (hj : Accounted (past ++ new) (s₁.setTask t job').connections.length job') {u : Nat}
      {other : ClientJob} (hu : (s₁.setTask t job').tasks[u]? = some other) :
      s.tasks[u]? = some other ∨
        Accounted (past ++ new) (s₁.setTask t job').connections.length other := by
    rcases (getElem?_set_eq_some (htasks ▸ ht)).mp hu with ⟨-, rfl⟩ | ⟨-, hold⟩
    · exact .inr hj
    · exact .inl (htasks ▸ hold)
  -- The tasks that do not open a connection leave the slot alone, and all others close in the end.
  have rest (hslot : s₁.slot = s.slot)
      (hlate : ∀ {d : Nat} {x : Connection}, s₁.connections[d]? = some x → d ∉ past → x.Late)
      (hj : Accounted past s₁.connections.length job') :
      Kept (past ++ installed s (s₁.setTask t job')) (s₁.setTask t job') := by
    have hnone : installed s (s₁.setTask t job') = [] := installed_eq_nil (.inl hslot)
    rw [hnone]
    refine h.goes_on hlen (by simp) ?_ ?_ (tasks ?_)
    · intro c hc
      exact List.mem_append_left _ (h.slot (hslot ▸ hc))
    · intro d x hx hd
      exact hlate hx fun hin => hd (List.mem_append_left _ hin)
    · rwa [List.append_nil]
  have install (hslot : s₁.slot = some s.connections.length)
      (hlt : s.connections.length < s₁.connections.length)
      (hlate : ∀ {d : Nat} {x : Connection}, s₁.connections[d]? = some x →
        d ∉ past ++ [s.connections.length] → x.Late)
      (hj : Accounted (past ++ [s.connections.length]) s₁.connections.length job') :
      Kept (past ++ installed s (s₁.setTask t job')) (s₁.setTask t job') := by
    have hnew : installed s (s₁.setTask t job') = [s.connections.length] :=
      installed_new hsound hslot
    rw [hnew]
    refine h.goes_on hlen ?_ ?_ hlate (tasks hj)
    · intro c hc
      obtain rfl := List.mem_singleton.mp hc
      exact ⟨Nat.le_refl _, hlt⟩
    · intro c hc
      obtain rfl := Option.some.inj (hslot.symm.trans hc)
      exact List.mem_append_right _ List.mem_cons_self
  cases hw with
  | lose opened =>
    have hlate := (Connection.unheard_ofStream opened).late (Connection.sound_ofStream opened)
      (by rw [Connection.ofStream_fresh opened])
    exact rest rfl (h.concat_late hlate) ⟨h.fresh, by simp [added]⟩
  | first opened =>
    exact install rfl (by simp [added, withSlot]) h.concat_installed trivial
  | @supersede _ _ _ x y stale opened _ hslot hy =>
    refine install rfl (by simp [added, setConnection, withSlot]) ?_
      (List.mem_append_right _ List.mem_cons_self)
    intro d z hz hd
    rcases (getElem?_set_eq_some hy).mp hz with ⟨rfl, -⟩ | ⟨-, hold⟩
    · exact absurd (List.mem_append_left _ (h.slot hslot)) hd
    · exact h.concat_installed hold hd
  | replaced _ hx => exact rest rfl (h.set_installed (h.tasks ht)) trivial
  | _ => exact rest rfl h.late trivial

theorem begins {r : Request} (h : Kept past s) (hb : Begins s r s₁ job) :
    Kept (past ++ installed s (s₁.addTask job)) (s₁.addTask job) := by
  have enter (hslot : s₁.slot = s.slot ∨ s₁.slot = none)
      (hlen : s₁.connections.length = s.connections.length)
      (hlate : ∀ {d : Nat} {x : Connection}, s₁.connections[d]? = some x → d ∉ past → x.Late)
      (htasks : s₁.tasks = s.tasks) (hj : ∀ past n, Accounted past n job) :
      Kept (past ++ installed s (s₁.addTask job)) (s₁.addTask job) := by
    have hnone : installed s (s₁.addTask job) = [] := installed_eq_nil hslot
    rw [hnone]
    refine h.goes_on (Nat.le_of_eq hlen.symm) (by simp) ?_ ?_ ?_
    · intro c hc
      rcases hslot with heq | heq
      · exact List.mem_append_left _ (h.slot (heq ▸ hc))
      · exact absurd (heq.symm.trans hc) nofun
    · intro d x hx hd
      exact hlate hx fun hin => hd (List.mem_append_left _ hin)
    · intro u other hu
      rcases getElem?_concat_eq_some.mp hu with ⟨-, rfl⟩ | hold
      · exact .inr (hj _ _)
      · exact .inl (htasks ▸ hold)
  cases hb with
  | send hslot =>
    exact enter (.inl rfl) List.length_set (h.set_installed (h.slot hslot)) rfl fun _ _ => trivial
  | close hslot =>
    exact enter (.inr rfl) List.length_set (h.set_installed (h.slot hslot)) rfl fun _ _ => trivial
  | _ => exact enter (.inl rfl) rfl h.late rfl fun _ _ => trivial

theorem stay (h : Kept past s') (hslot : s'.slot = s.slot) :
    Kept (past ++ installed s s') s' := by
  rw [installed_eq_nil (.inl hslot), List.append_nil]
  exact h

theorem turn (h : Kept past s) (hsound : s.Sound) (ht : Turn behaviour s a s') :
    Kept (past ++ installed s s') s' := by
  cases ht with
  | subscribe | pass => exact stay ⟨h.slot, h.known, h.late, h.tasks⟩ rfl
  | begin _ hb => exact h.begins hb
  | work _ hw => exact h.works hsound hw
  | @on c act x x' feed _ hx hcall hs =>
    have hlen : (s.connections.set c x').length = s.connections.length := List.length_set
    refine stay ⟨h.slot, fun hc => hlen.symm ▸ h.known hc, ?_, fun ht => hlen.symm ▸ h.tasks ht⟩ rfl
    intro d y hy hd
    rcases (getElem?_set_eq_some hx).mp hy with ⟨rfl, rfl⟩ | ⟨-, hold⟩
    · exact (h.late hx hd).turn (Connection.turn_of_step hs) hcall
    · exact h.late hold hd

end Kept

theorem Installs.kept (h : Installs behaviour past s) : Kept past s := by
  induction h with
  | new config => exact kept_new config
  | step a hi hs ih => exact ih.turn (sound_of_reachable hi.reachable) (turn_of_step hs)

end Client

end Fanout
