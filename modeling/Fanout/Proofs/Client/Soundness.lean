import Fanout.Proofs.Client.Turn
import Fanout.Proofs.Connection.Refusal
import Fanout.Proofs.Waiting.Scene

namespace Fanout.Client

def awaits (s : Client) (t : Nat) : Option (Nat × Nat) :=
  s.tasks[t]?.bind awaited?

def AllSound (xs : List Connection) : Prop :=
  ∀ ⦃c : Nat⦄ ⦃x : Connection⦄, xs[c]? = some x → x.Sound

structure Sound (s : Client) : Prop where
  connections : AllSound s.connections
  current : ∀ {c : Nat}, s.slot = some c → c < s.connections.length
  replacing : ∀ {t c stale call : Nat} {address : String},
    s.tasks[t]? = some (.replace address c stale call) → c < s.connections.length
  attended : Attended s.connections s.awaits

variable {behaviour : Behaviour} {s s' s₁ : Client} {t c call : Nat} {job job' : ClientJob}
  {a : Action} {x x' : Connection}

theorem sound_new (config : ClientConfig) : Sound { config } where
  connections := fun _ _ hx => by simp at hx
  current := nofun
  replacing := by simp
  attended := ⟨fun ⟨x, _, hx, _⟩ => by simp at hx, fun h => by simp [awaits] at h⟩

theorem Returns.not_pending {failure : Failure} (hr : s.Returns c call failure) :
    ¬ Pending s.connections c call := by
  obtain ⟨x, hx, he⟩ := hr
  exact not_pending_of_ended hx he

theorem AllSound.concat {xs : List Connection} (h : AllSound xs) (hx : x.Sound) :
    AllSound (xs ++ [x]) := by
  intro c y hy
  rcases getElem?_concat_eq_some.mp hy with ⟨-, rfl⟩ | hold
  · exact hx
  · exact h hold

theorem AllSound.set {xs : List Connection} {b : Connection.Action} (h : AllSound xs)
    (hx : xs[c]? = some x) (ht : Connection.Turn x b x') : AllSound (xs.set c x') := by
  intro d y hy
  rcases (getElem?_set_eq_some hx).mp hy with ⟨-, rfl⟩ | ⟨-, hold⟩
  · exact (h hx).turn ht
  · exact h hold

theorem added_new (s : Client) (x : Connection) :
    (s.added x).connections[s.connections.length]? = some x :=
  getElem?_concat_eq_some.mpr (.inl ⟨rfl, rfl⟩)

theorem added_set (s : Client) (x y : Connection) :
    (s.added x).connections.set s.connections.length y = (s.added y).connections :=
  congrArg Client.connections (setConnection_added x y)

theorem continues_added {stream : Stream} {settings : Settings} {time : Timestamp}
    (opened : Connection.ofStream stream settings time = .ok x) :
    Continues s.connections (s.added x).connections none :=
  continues_concat _ (Connection.unheard_ofStream opened).calls

namespace Work

theorem allSound (hw : Work s job s₁ job') (h : AllSound s.connections) :
    AllSound s₁.connections := by
  cases hw with
  | lose opened => exact h.concat ((Connection.sound_ofStream opened).turn .close)
  | @first _ _ _ x opened =>
    exact h.concat ((Connection.sound_ofStream opened).turn (Connection.turn_listen x))
  | supersede opened _ _ hy =>
    exact (h.concat (Connection.sound_ofStream opened)).set hy .close
  | replaced _ hx => exact h.set hx (Connection.turn_listen _)
  | _ => exact h

theorem length_le (hw : Work s job s₁ job') : s.connections.length ≤ s₁.connections.length := by
  cases hw with
  | lose | first => simp [added, withSlot]
  | supersede => simp [added, setConnection, withSlot]
  | replaced => simp [setConnection]
  | _ => exact Nat.le_refl _

theorem frame (hw : Work s job s₁ job') : s₁.tasks = s.tasks ∧ s₁.feed = s.feed := by
  cases hw <;> exact ⟨rfl, rfl⟩

theorem current (hw : Work s job s₁ job') (hs : s₁.slot = some c) :
    s.slot = some c ∨ c = s.connections.length ∧ c < s₁.connections.length := by
  cases hw with
  | first =>
    obtain rfl := Option.some.inj hs
    exact .inr ⟨rfl, by simp [added, withSlot]⟩
  | supersede =>
    obtain rfl := Option.some.inj hs
    exact .inr ⟨rfl, by simp [added, setConnection, withSlot]⟩
  | _ => exact .inl hs

theorem replacing (hw : Work s job s₁ job') {address : String} {stale : Nat}
    (hj : job' = .replace address c stale call) :
    c = s.connections.length ∧ s₁.slot = some c := by
  cases hw with
  | supersede =>
    obtain ⟨-, rfl, -⟩ := ClientJob.replace.inj hj
    exact ⟨rfl, rfl⟩
  | _ => simp at hj

theorem not_pending (hw : Work s job s₁ job') (ha : awaited? job = some (c, call)) :
    ¬ Pending s.connections c call := by
  cases hw with
  | discarded hr | replaced hr | sent hr | closed hr =>
    obtain ⟨rfl, rfl⟩ := Prod.mk.inj (Option.some.inj ha)
    exact hr.not_pending
  | crash ha' hc =>
    obtain ⟨rfl, rfl⟩ := Prod.mk.inj (Option.some.inj (ha'.symm.trans ha))
    obtain ⟨x, hx, he⟩ := hc
    exact not_pending_of_ended hx he
  | _ => exact absurd ha nofun

theorem continues (hw : Work s job s₁ job') :
    Continues s.connections s₁.connections (awaited? job') := by
  cases hw with
  | @lose _ _ _ x opened =>
    have hclose : Continues (s.added x).connections
        ((s.added x).connections.set s.connections.length x.beginClose)
        (some (s.connections.length, x.calls.length)) := continues_call (added_new s x) rfl
    rw [added_set] at hclose
    exact (continues_added opened).trans hclose
  | @first _ _ _ x opened =>
    have hlisten := continues_listen (added_new s x)
    rw [added_set] at hlisten
    exact (continues_added opened).trans hlisten
  | supersede opened _ _ hy => exact (continues_added opened).trans (continues_call hy rfl)
  | replaced _ hx => exact continues_listen hx
  | _ => exact continues_same _

end Work

theorem awaits_setTask_other {u : Nat} (hu : u ≠ t) : (s.setTask t job).awaits u = s.awaits u := by
  simp only [awaits, setTask, List.getElem?_set_ne (Ne.symm hu)]

theorem Sound.works (h : s.Sound) (hw : s.Works t s') : s'.Sound := by
  obtain ⟨job, s₁, job', ht, hw, rfl⟩ := hw
  obtain ⟨htasks, -⟩ := hw.frame
  have ht₁ : s₁.tasks[t]? = some job := htasks ▸ ht
  refine ⟨hw.allSound h.connections, ?_, ?_, ?_⟩
  · intro c hc
    rcases hw.current hc with hold | ⟨-, hlt⟩
    · exact Nat.lt_of_lt_of_le (h.current hold) hw.length_le
    · exact hlt
  · intro u c stale call address hu
    rcases (getElem?_set_eq_some ht₁).mp hu with ⟨-, hnew⟩ | ⟨-, hold⟩
    · obtain ⟨rfl, hslot⟩ := hw.replacing hnew.symm
      rcases hw.current hslot with hold | ⟨-, hlt⟩
      · exact absurd (h.current hold) (Nat.lt_irrefl _)
      · exact hlt
    · exact Nat.lt_of_lt_of_le (h.replacing (htasks ▸ hold)) hw.length_le
  · refine h.attended.goes_on (t := t) hw.continues ?_ ?_ ?_
    · intro u hu
      rw [awaits_setTask_other hu, awaits, awaits, htasks]
    · intro c i ha
      exact hw.not_pending (by simpa [awaits, ht] using ha)
    · have hnew : (s₁.setTask t job').tasks[t]? = some job' :=
        (getElem?_set_eq_some ht₁).mpr (.inl ⟨rfl, rfl⟩)
      simp [awaits, hnew]

theorem Sound.enter (h : s.Sound) (hall : AllSound s₁.connections)
    (hxs : Continues s.connections s₁.connections (awaited? job))
    (htasks : s₁.tasks = s.tasks) (hlen : s₁.connections.length = s.connections.length)
    (hslot : s₁.slot = s.slot ∨ s₁.slot = none)
    (hj : ∀ address c stale call, job ≠ .replace address c stale call) :
    (s₁.addTask job).Sound where
  connections := hall
  current {c} hc := by
    rcases hslot with heq | heq
    · exact hlen ▸ h.current (heq ▸ hc)
    · exact absurd (heq.symm.trans hc) nofun
  replacing {u c stale call address} hu := by
    rcases getElem?_concat_eq_some.mp hu with ⟨-, hnew⟩ | hold
    · exact absurd hnew.symm (hj _ _ _ _)
    · exact hlen ▸ h.replacing (htasks ▸ hold)
  attended := by
    refine h.attended.goes_on (t := s.tasks.length) hxs ?_ ?_ ?_
    · intro u hu
      simp only [awaits, addTask, htasks]
      rcases Nat.lt_or_gt_of_ne hu with hlt | hgt
      · rw [List.getElem?_append_left hlt]
      · rw [List.getElem?_eq_none (by simp; omega), List.getElem?_eq_none (by omega)]
    · intro c i ha
      simp [awaits] at ha
    · simp [awaits, addTask, htasks]

theorem Sound.begins {r : Request} (h : s.Sound) (hb : Begins s r s₁ job) :
    (s₁.addTask job).Sound := by
  cases hb with
  | misconfigured | already | connect | sendNowhere | closeNothing =>
    exact h.enter h.connections (continues_same _) rfl rfl (.inl rfl) nofun
  | @send payload c x _ hx =>
    exact h.enter (h.connections.set hx (.send payload)) (continues_call hx rfl) rfl
      List.length_set (.inl rfl) nofun
  | @close c x _ hx =>
    exact h.enter (h.connections.set hx .close) (continues_call hx rfl) rfl List.length_set
      (.inr rfl) nofun

theorem Sound.same (h : s.Sound) (hall : AllSound s'.connections)
    (hxs : Continues s.connections s'.connections none) (htasks : s'.tasks = s.tasks)
    (hlen : s'.connections.length = s.connections.length) (hslot : s'.slot = s.slot) :
    s'.Sound where
  connections := hall
  current hc := hlen ▸ h.current (hslot ▸ hc)
  replacing ht := hlen ▸ h.replacing (htasks ▸ ht)
  attended := h.attended.same hxs fun u => by rw [awaits, awaits, htasks]

theorem Sound.turn (h : s.Sound) (ht : Turn behaviour s a s') : s'.Sound := by
  cases ht with
  | subscribe | pass => exact h.same h.connections (continues_same _) rfl rfl rfl
  | begin ha hb => exact h.begins hb
  | work ha hw => exact h.works hw
  | on ha hx hcall hs =>
    have hturn := Connection.turn_of_step hs
    exact h.same (h.connections.set hx hturn) (continues_turn hx hturn hcall) rfl
      List.length_set rfl

theorem sound_of_reachable (h : Reachable behaviour s) : s.Sound := by
  induction h with
  | new config => exact sound_new config
  | step a _ hs ih => exact ih.turn (turn_of_step hs)

end Fanout.Client
