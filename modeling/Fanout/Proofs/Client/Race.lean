import Fanout.Proofs.Client.LostRace
import Fanout.Proofs.Client.Replacement
import Fanout.Proofs.Client.Waiting

namespace Fanout.Client

def opening (s s' : Client) (a : Action) : List (Nat × Nat) :=
  match a.task? with
  | some t => if s.connections.length < s'.connections.length then [(t, s.connections.length)] else []
  | none => []

/-- The runs in which nobody closes the client and its current connection stays up, with the
connects that have got a connection in them, earliest first. -/
inductive Race (behaviour : Behaviour) (s₀ : Client) : List (Nat × Nat) → Client → Prop
  | start : Race behaviour s₀ [] s₀
  | step {opened : List (Nat × Nat)} {s s' : Client} (a : Action)
      (h : Race behaviour s₀ opened s) (hs : s.step behaviour a = some s')
      (ha : a ≠ .begin .close) (stays : s.isConnected = true → s'.isConnected = true) :
      Race behaviour s₀ (opened ++ opening s s' a) s'

inductive Wins (c : Nat) : ClientJob → Prop
  | replace (address : String) (stale i : Nat) : Wins c (.replace address c stale i)
  | ok : Wins c (.done .ok)

inductive Yields (behaviour : Behaviour) : ClientJob → Prop
  | discard (c i : Nat) : Yields behaviour (.discard c i)
  | refused : Yields behaviour (.done (.failed .alreadyConnected))
  | crashed (hr : Bus.Raises behaviour) : Yields behaviour .crashed

inductive Opens (s s' : Client) : ClientJob → Prop
  | late {i : Nat} (hc : s.isConnected = true) (hslot : s'.slot = s.slot) :
      Opens s s' (.discard s.connections.length i)
  | current {job : ClientJob} (hc : s.isConnected = false)
      (hslot : s'.slot = some s.connections.length) (hup : s'.isConnected = true)
      (hj : Wins s.connections.length job) : Opens s s' job

structure Won (behaviour : Behaviour) (opened : List (Nat × Nat)) (s : Client) (w c : Nat) :
    Prop where
  runs : (w, c) ∈ opened
  slot : s.slot = some c
  isConnected : s.isConnected = true
  winner : ∃ job, s.tasks[w]? = some job ∧ Wins c job
  others : ∀ {u d : Nat}, (u, d) ∈ opened → u ≠ w →
    ∃ job, s.tasks[u]? = some job ∧ Yields behaviour job

variable {behaviour : Behaviour} {s s' s₀ s₁ : Client} {t u w c d i : Nat} {job job' : ClientJob}
  {x x' : Connection} {a : Action} {opened : List (Nat × Nat)}

theorem down_of_flows (hs : s.Sound) (hslot : s'.slot = s.slot)
    (hf : Connection.Flows s.connections s'.connections) (hc : s.isConnected = false) :
    s'.isConnected = false := by
  cases hcurrent : s.slot with
  | none => simp [isConnected, current?, hslot, hcurrent]
  | some c =>
    obtain ⟨x, hx⟩ : ∃ x, s.connections[c]? = some x :=
      ⟨_, List.getElem?_eq_getElem (hs.current hcurrent)⟩
    obtain ⟨y, hy, hp⟩ := hf.onward hx
    rw [isConnected_of_slot hcurrent hx] at hc
    rw [isConnected_of_slot (hslot.trans hcurrent) hy]
    have hdown : x.phase = .disconnected := by simpa [Connection.isConnected] using hc
    have hdown' := hp.keeps hdown fun h ht => ht.disconnected_mono h
    simp [Connection.isConnected, hdown']

theorem Work.opens (hs : s.Sound) (hw : Work s job s₁ job') :
    s₁.connections.length = s.connections.length ∧ s₁.slot = s.slot ∨
      s₁.connections.length = s.connections.length + 1 ∧ Opens s s₁ job' := by
  have same (x : Connection) : (s.added x).isConnected = s.isConnected := by
    have hadded : Undisturbed s (s.added x) :=
      undisturbed rfl fun hc => List.getElem?_append_left (hs.current hc)
    exact hadded.connected
  cases hw with
  | lose opened hc => exact .inr ⟨by simp [added], .late (same _ ▸ hc) rfl⟩
  | @first _ _ _ x opened hslot =>
    obtain ⟨hnone, hphase⟩ := (Connection.unheard_ofStream opened).listen
      (Connection.sound_ofStream opened)
    refine .inr ⟨by simp [added, withSlot], .current ?_ rfl ?_ ?_⟩
    · simp [isConnected, current?, hslot]
    · rw [isConnected_of_slot (s := (s.added x.listen.1).withSlot _) rfl (added_new s _)]
      simp [Connection.isConnected, hphase]
    · rw [hnone]
      exact .ok
  | @supersede _ _ _ x y stale opened hc hslot hy =>
    have hne : s.connections.length ≠ stale := Nat.ne_of_gt (hs.current hslot)
    refine .inr ⟨by simp [added, setConnection, withSlot],
      .current (same x ▸ hc) rfl ?_ (.replace _ _ _)⟩
    rw [isConnected_of_slot (s := ((s.added x).setConnection stale y.beginClose).withSlot _) rfl
      ((getElem?_set_eq_some hy).mpr (.inr ⟨hne, added_new s x⟩))]
    simp [Connection.isConnected, (Connection.unheard_ofStream opened).phase]
  | replaced => exact .inl ⟨List.length_set, rfl⟩
  | _ => exact .inl ⟨rfl, rfl⟩

theorem Turn.opens (hs : s.Sound) (ht : Turn behaviour s a s') (ha : a ≠ .begin .close) :
    opening s s' a = [] ∧ s'.slot = s.slot ∨
      ∃ t job, opening s s' a = [(t, s.connections.length)] ∧ s'.tasks[t]? = some job ∧
        Opens s s' job := by
  cases ht with
  | subscribe _ hact | pass _ hact | on hact => exact .inl ⟨by simp [opening, hact, Action.task?], rfl⟩
  | begin hact hb =>
    refine .inl ⟨by simp [opening, hact, Action.task?], ?_⟩
    cases hb with
    | close => exact absurd hact ha
    | _ => rfl
  | @work t _ hact hw =>
    obtain ⟨before, s₁, job, hjob, hw, rfl⟩ := hw
    rcases hw.opens hs with ⟨hlen, hslot⟩ | ⟨hlen, hopens⟩
    · exact .inl ⟨by simp [opening, hact, setTask, hlen], hslot⟩
    · refine .inr ⟨t, job, by simp [opening, hact, setTask, hlen],
        (getElem?_set_eq_some (hw.frame.1 ▸ hjob)).mpr (.inl ⟨rfl, rfl⟩), ?_⟩
      cases hopens with
      | late hc hslot => exact .late hc hslot
      | current hc hslot hup hj => exact .current hc hslot hup hj

theorem Wins.work (h : Wins c job) (hr : Reachable behaviour s) (hw : Work s job s₁ job')
    (ht : s.tasks[t]? = some job) (hslot : s.slot = some c) (hup : s.isConnected = true) :
    Wins c job' := by
  cases h with
  | ok =>
    cases hw with
    | crash ha => simp [awaited?] at ha
  | replace address stale i =>
    cases hw with
    | @replaced _ _ _ _ _ x _ hx =>
      have hcancelled := (current_of_reachable hr hx).mp hslot
      have hphase : x.phase = .created := by
        have hnot := (reserved_of_reachable hr).unheard ht hx
        rw [isConnected_of_slot hslot hx] at hup
        cases hp : x.phase <;> simp_all [Connection.isConnected]
      rw [((sound_of_reachable hr).connections hx).listens hcancelled hphase]
      exact .ok
    | crash ha hc =>
      obtain ⟨rfl, rfl⟩ := Prod.mk.inj (Option.some.inj ha)
      obtain ⟨x, hx, hsettles⟩ := answers_of_reachable hr ht
      obtain ⟨y, hy, he⟩ := hc
      obtain rfl := Option.some.inj (hx.symm.trans hy)
      exact absurd he hsettles.not_crashed

theorem Yields.work (h : Yields behaviour job) (hr : Reachable behaviour s)
    (hw : Work s job s₁ job') : Yields behaviour job' := by
  cases h with
  | discard =>
    cases hw with
    | discarded => exact .refused
    | crash _ hc => exact .crashed (raises_of_crashes hr hc)
  | refused | crashed =>
    cases hw with
    | crash ha => simp [awaited?] at ha

theorem Won.turn (h : Won behaviour opened s w c) (hr : Reachable behaviour s)
    (ht : Turn behaviour s a s') (ha : a ≠ .begin .close) (hup : s'.isConnected = true) :
    Won behaviour (opened ++ opening s s' a) s' w c := by
  have hopens := ht.opens (sound_of_reachable hr) ha
  refine ⟨List.mem_append_left _ h.runs, ?_, hup, ?_, ?_⟩
  · rcases hopens with ⟨-, hslot⟩ | ⟨t, _, -, -, hopens⟩
    · exact hslot.trans h.slot
    · cases hopens with
      | late _ hslot => exact hslot.trans h.slot
      | current hc => exact absurd (hc.symm.trans h.isConnected) nofun
  · obtain ⟨job, hjob, hwins⟩ := h.winner
    rcases ht.task_onward hjob with hsame | ⟨s₁, job', hw, -, hjob'⟩
    · exact ⟨job, hsame, hwins⟩
    · exact ⟨job', hjob', hwins.work hr hw hjob h.slot h.isConnected⟩
  · intro u d hu hne
    rcases List.mem_append.mp hu with hold | hnew
    · obtain ⟨job, hjob, hyields⟩ := h.others hold hne
      rcases ht.task_onward hjob with hsame | ⟨s₁, job', hw, -, hjob'⟩
      · exact ⟨job, hsame, hyields⟩
      · exact ⟨job', hjob', hyields.work hr hw⟩
    · rcases hopens with ⟨hnone, -⟩ | ⟨t, job, hsome, hjob, hopens⟩
      · rw [hnone] at hnew
        exact absurd hnew List.not_mem_nil
      · rw [hsome, List.mem_singleton] at hnew
        obtain ⟨rfl, rfl⟩ := Prod.mk.inj hnew
        cases hopens with
        | late => exact ⟨_, hjob, .discard _ _⟩
        | current hc => exact absurd (hc.symm.trans h.isConnected) nofun

theorem Turn.first_open (hs : s.Sound) (ht : Turn behaviour s a s') (ha : a ≠ .begin .close)
    (hc : s.isConnected = false) :
    opening s s' a = [] ∧ s'.isConnected = false ∨
      ∃ w c, Won behaviour (opening s s' a) s' w c := by
  rcases ht.opens hs ha with ⟨hnone, hslot⟩ | ⟨t, job, hsome, hjob, hopens⟩
  · exact .inl ⟨hnone, down_of_flows hs hslot ht.flows hc⟩
  · cases hopens with
    | late hup => exact absurd (hc.symm.trans hup) nofun
    | current _ hslot hup hj =>
      refine .inr ⟨t, s.connections.length, by simp [hsome], hslot, hup, ⟨job, hjob, hj⟩, ?_⟩
      intro u d hu hne
      rw [hsome, List.mem_singleton] at hu
      exact absurd (Prod.mk.inj hu).1 hne

theorem Race.run (h : Race behaviour s₀ opened s) : Run behaviour s₀ s := by
  induction h with
  | start => exact .refl
  | step a _ hs _ _ ih => exact ih.tail ⟨a, hs⟩

theorem Race.stands (h : Race behaviour s₀ opened s) (hr : Reachable behaviour s₀)
    (hc : s₀.isConnected = false) :
    opened = [] ∧ s.isConnected = false ∨ ∃ w c, Won behaviour opened s w c := by
  induction h with
  | start => exact .inl ⟨rfl, hc⟩
  | step a h hs hopen stays ih =>
    have hreach := h.run.reachable hr
    have ht := turn_of_step hs
    rcases ih with ⟨rfl, hdown⟩ | ⟨w, c, hwon⟩
    · exact ht.first_open (sound_of_reachable hreach) hopen hdown
    · exact .inr ⟨w, c, hwon.turn hreach ht hopen (stays hwon.isConnected)⟩

def Nears (behaviour : Behaviour) (s s' : Client) : Prop :=
  ∃ a, s.step behaviour a = some s' ∧ a ≠ .begin .close ∧ opening s s' a = [] ∧
    s'.isConnected = s.isConnected ∧ s'.isAborted = false

def Nearing (behaviour : Behaviour) : Client → Client → Prop :=
  Relation.ReflTransGen (Nears behaviour)

theorem Race.nearing (h : Race behaviour s₀ opened s) (hn : Nearing behaviour s s') :
    Race behaviour s₀ opened s' := by
  induction hn with
  | refl => exact h
  | tail _ hn ih =>
    obtain ⟨a, hs, ha, hnone, hsame, -⟩ := hn
    have hrace := ih.step a hs ha fun hup => hsame.trans hup
    rwa [hnone, List.append_nil] at hrace

theorem Nearing.run (h : Nearing behaviour s s') : Run behaviour s s' :=
  h.lift id fun _ _ ⟨a, hs, _⟩ => ⟨a, hs⟩

theorem Nearing.present (h : Nearing behaviour s s') (hp : s.isAborted = false) :
    s'.isAborted = false := by
  cases h with
  | refl => exact hp
  | tail _ hn =>
    obtain ⟨_, _, _, _, _, hpresent⟩ := hn
    exact hpresent

def HasEnded (s : Client) (t : Nat) : Prop :=
  ∃ job, s.tasks[t]? = some job ∧ job.isOver = true

theorem Work.not_over (hw : Work s job s₁ job') : job.isOver = false := by
  cases hw with
  | crash ha => exact not_over_of_awaited ha
  | _ => rfl

theorem HasEnded.nearing (h : s.HasEnded t) (hn : Nearing behaviour s s') : s'.HasEnded t := by
  induction hn with
  | refl => exact h
  | tail _ hn ih =>
    obtain ⟨job, hjob, hover⟩ := ih
    obtain ⟨a, hs, -⟩ := hn
    rcases (turn_of_step hs).task_onward hjob with hsame | ⟨_, _, hw, -⟩
    · exact ⟨job, hsame, hover⟩
    · exact absurd (hover.symm.trans hw.not_over) nofun

theorem isAborted_eq_false :
    s.isAborted = false ↔
      ∀ (c : Nat) (x : Connection), s.connections[c]? = some x → x.receiver ≠ .ended .aborted := by
  simp only [isAborted, List.any_eq_false, List.mem_iff_getElem?, beq_iff_eq]
  exact ⟨fun h c x hx => h x ⟨c, hx⟩, fun h x ⟨c, hx⟩ => h c x hx⟩

theorem present_set (hp : s.isAborted = false) (hx : s.connections[c]? = some x)
    (hr : x.receiver ≠ .ended .aborted → x'.receiver ≠ .ended .aborted) :
    (s.setConnection c x').isAborted = false := by
  rw [isAborted_eq_false] at hp ⊢
  intro d y hy
  rcases (getElem?_set_eq_some hx).mp hy with ⟨-, rfl⟩ | ⟨-, hold⟩
  · exact hr (hp c x hx)
  · exact hp d y hold

theorem Work.of_awaiting (hw : Work s job s₁ job') (ha : awaited? job = some (c, i)) :
    s₁.connections.length = s.connections.length ∧ s₁.isConnected = s.isConnected ∧
      (s.isAborted = false → s₁.isAborted = false) := by
  cases hw with
  | discarded | sent | closed | crash => exact ⟨rfl, rfl, id⟩
  | @replaced _ d _ _ _ x _ hx =>
    refine ⟨List.length_set, ?_, fun hp => present_set hp hx x.listen_receiver⟩
    have hnew : (s.setConnection d x.listen.1).connections[d]? = some x.listen.1 :=
      (getElem?_set_eq_some hx).mpr (.inl ⟨rfl, rfl⟩)
    by_cases hslot : s.slot = some d
    · rw [isConnected_of_slot hslot hx, ← x.listen_isConnected]
      exact isConnected_of_slot (s := s.setConnection d x.listen.1) hslot hnew
    · have hsame : Undisturbed s (s.setConnection d x.listen.1) := undisturbed_set hslot rfl rfl
      exact hsame.connected
  | _ => simp [awaited?] at ha

theorem resume_ends (hr : Reachable behaviour s) (hp : s.isAborted = false)
    (ht : s.tasks[t]? = some job) (ha : awaited? job = some (c, i))
    (hx : s.connections[c]? = some x) {ending : CallEnd} (he : x.ending? i = some ending) :
    ∃ s', Nears behaviour s s' ∧ s'.HasEnded t := by
  have hsome := (sound_of_reachable hr).caller_goes_on ht ha hx he
  obtain ⟨s', hs'⟩ := Option.isSome_iff_exists.mp hsome
  have hstep : s.step behaviour (.resume t) = some s' := by simp [step, hp, hs']
  obtain ⟨before, s₁, job', hbefore, hw, rfl⟩ := works_resume hs'
  obtain rfl := Option.some.inj (ht.symm.trans hbefore)
  obtain ⟨hlen, hsame, hpresent⟩ := hw.of_awaiting ha
  refine ⟨_, ⟨.resume t, hstep, by simp, ?_, hsame, hpresent hp⟩, job', ?_, hw.isOver ha⟩
  · simp [opening, Action.task?, setTask, hlen]
  · exact (getElem?_set_eq_some (hw.frame.1 ▸ ht)).mpr (.inl ⟨rfl, rfl⟩)

theorem ends_of_silenced (hr : Reachable behaviour s) (hp : s.isAborted = false)
    (ht : s.tasks[t]? = some job) (ha : awaited? job = some (c, i))
    (hx : s.connections[c]? = some x) (hsilenced : x.Silenced) :
    ∃ s', Nearing behaviour s s' ∧ s'.HasEnded t := by
  -- By induction on what is left to do on the connection, on which nothing else goes on.
  induction hn : x.work using Nat.strongRecOn generalizing s x with
  | ind n ih =>
    have hs := sound_of_reachable hr
    cases he : x.ending? i with
    | some ending =>
      obtain ⟨s', hnears, hended⟩ := resume_ends hr hp ht ha hx he
      exact ⟨s', .single hnears, hended⟩
    | none =>
      have hawaits : s.awaits t = some (c, i) := by simp [awaits, ht, ha]
      obtain ⟨y, hy, hlt⟩ := hs.attended.begun hawaits
      obtain rfl := Option.some.inj (hx.symm.trans hy)
      have hcall := List.getElem?_eq_getElem hlt
      have hunended : (x.calls[i]).ending? = none := by simpa [Connection.ending?, hcall] using he
      obtain ⟨act, hdraining, hgoes⟩ :=
        (hs.connections hx).drains hsilenced.receiver hcall hunended
      obtain ⟨⟨x', feed⟩, hstep⟩ := hgoes (s.tell behaviour c) s.feed
      have hturn := Connection.turn_of_step hstep
      obtain ⟨⟨-, hless⟩, hreceiver⟩ := hturn.drains hdraining
      have hs' : s.step behaviour (.on c act) = some { s.setConnection c x' with feed } := by
        simp [step, hp, Connection.Action.not_call_of_draining hdraining, actOn, hx, hstep]
      have hslot : s.slot ≠ some c := by
        simp [current_of_reachable hr hx, hsilenced.cancelled]
      have hsame : Undisturbed s { s.setConnection c x' with feed } :=
        undisturbed_set hslot rfl rfl
      have hpresent : ({ s.setConnection c x' with feed } : Client).isAborted = false :=
        present_set hp hx fun hne => hreceiver ▸ hne
      obtain ⟨s', hnearing, hended⟩ := ih x'.work (hn ▸ hless) (.step _ hr hs') hpresent ht
        ((getElem?_set_eq_some hx).mpr (.inl ⟨rfl, rfl⟩)) (hsilenced.turn hturn) rfl
      exact ⟨s', hnearing.head ⟨.on c act, hs', by simp, rfl, hsame.connected, hpresent⟩, hended⟩

theorem Won.task (h : Won behaviour opened s w c) (hu : (u, d) ∈ opened) :
    ∃ job, s.tasks[u]? = some job ∧ (u = w ∧ Wins c job ∨ u ≠ w ∧ Yields behaviour job) := by
  by_cases hw : u = w
  · obtain ⟨job, hjob, hwins⟩ := h.winner
    exact ⟨job, hw ▸ hjob, .inl ⟨hw, hwins⟩⟩
  · obtain ⟨job, hjob, hyields⟩ := h.others hu hw
    exact ⟨job, hjob, .inr ⟨hw, hyields⟩⟩

theorem Won.ends (h : Won behaviour opened s w c) (hr : Reachable behaviour s)
    (hp : s.isAborted = false) (hu : (u, d) ∈ opened) :
    ∃ s', Nearing behaviour s s' ∧ s'.HasEnded u := by
  obtain ⟨job, hjob, hcase⟩ := h.task hu
  have hanswers := answers_of_reachable hr hjob
  have ended (hover : job.isOver = true) : ∃ s', Nearing behaviour s s' ∧ s'.HasEnded u :=
    ⟨s, .refl, job, hjob, hover⟩
  rcases hcase with ⟨-, hwins⟩ | ⟨-, hyields⟩
  · cases hwins with
    | ok => exact ended rfl
    | replace =>
      obtain ⟨x, hx, hsettles⟩ := hanswers
      exact ends_of_silenced hr hp hjob rfl hx
        (((sound_of_reachable hr).connections hx).silenced hsettles)
  · cases hyields with
    | refused | crashed => exact ended rfl
    | discard =>
      obtain ⟨x, hx, hsilenced⟩ := hanswers
      exact ends_of_silenced hr hp hjob rfl hx hsilenced

theorem Race.ends (h : Race behaviour s₀ opened s) (hr : Reachable behaviour s₀)
    (hc : s₀.isConnected = false) (hp : s.isAborted = false) (rest : List (Nat × Nat))
    (hrest : rest ⊆ opened) :
    ∃ s', Nearing behaviour s s' ∧ ∀ p ∈ rest, s'.HasEnded p.1 := by
  -- By induction on the connects that are still to end; those that have ended stay so.
  induction rest with
  | nil => exact ⟨s, .refl, by simp⟩
  | cons p rest ih =>
    obtain ⟨s₁, hn₁, hended₁⟩ := ih (List.subset_of_cons_subset hrest)
    have hrace := h.nearing hn₁
    have hmem : p ∈ opened := hrest List.mem_cons_self
    obtain ⟨w, c, hwon⟩ := (hrace.stands hr hc).resolve_left
      fun hnone => absurd hmem (hnone.1 ▸ List.not_mem_nil)
    obtain ⟨s', hn', hended⟩ := hwon.ends (hrace.run.reachable hr) (hn₁.present hp) hmem
    refine ⟨s', hn₁.trans hn', fun q hq => ?_⟩
    rcases List.mem_cons.mp hq with rfl | hq
    · exact hended
    · exact (hended₁ q hq).nearing hn'

/-- Of the connects that have got a connection one has succeeded, and its connection is the current
one. The others have found it there, or have panicked in a callback that learned of their end. -/
def Decided (behaviour : Behaviour) (opened : List (Nat × Nat)) (s : Client) : Prop :=
  ∃ w c, (w, c) ∈ opened ∧ s.tasks[w]? = some (.done .ok) ∧ s.slot = some c ∧
    s.isConnected = true ∧ ∀ u d, (u, d) ∈ opened → u ≠ w →
      s.tasks[u]? = some (.done (.failed .alreadyConnected)) ∨
        s.tasks[u]? = some .crashed ∧ Bus.Raises behaviour

theorem Won.decided (h : Won behaviour opened s w c) (hended : ∀ p ∈ opened, s.HasEnded p.1) :
    Decided behaviour opened s := by
  refine ⟨w, c, h.runs, ?_, h.slot, h.isConnected, fun u d hu hne => ?_⟩
  · obtain ⟨job, hjob, hwins⟩ := h.winner
    obtain ⟨job', hjob', hover⟩ := hended _ h.runs
    obtain rfl := Option.some.inj (hjob.symm.trans hjob')
    cases hwins with
    | ok => exact hjob
    | replace => exact absurd hover nofun
  · obtain ⟨job, hjob, hyields⟩ := h.others hu hne
    obtain ⟨job', hjob', hover⟩ := hended _ hu
    obtain rfl := Option.some.inj (hjob.symm.trans hjob')
    cases hyields with
    | refused => exact .inl hjob
    | crashed hraises => exact .inr ⟨hjob, hraises⟩
    | discard => exact absurd hover nofun

theorem one_connection_is_active (behaviour : Behaviour) {s : Client}
    (reachable : Reachable behaviour s) :
    (∀ (c : Nat) (x : Connection), s.connections[c]? = some x →
      (x.phase = .listening → x.cancelled = false → s.slot = some c) ∧
        (s.slot ≠ some c →
          (∀ (t : Nat) (job : ClientJob), s.tasks[t]? = some job → closes? job ≠ some c) →
          x.WasClosed)) ∧
      (s.isConnected = false → ∀ opened s', Race behaviour s opened s' → opened ≠ [] →
        ((∀ p ∈ opened, s'.HasEnded p.1) → Decided behaviour opened s') ∧
          (s'.isAborted = false → ∃ s'', Race behaviour s opened s'' ∧ Run behaviour s' s'' ∧
            Decided behaviour opened s'')) := by
  refine ⟨fun c x hx => ⟨fun _ hc => (current_of_reachable reachable hx).mpr hc, ?_⟩, ?_⟩
  · intro hslot hunowned
    refine (closed_unless_owned reachable hx hslot).resolve_left ?_
    rintro ⟨t, job, hjob, hcloses⟩
    exact hunowned t job hjob hcloses
  · intro hdown opened s' hrace hne
    have stands {s' : Client} (hrace : Race behaviour s opened s') :
        ∃ w c, Won behaviour opened s' w c :=
      (hrace.stands reachable hdown).resolve_left fun hnone => hne hnone.1
    refine ⟨fun hended => ?_, fun hpresent => ?_⟩
    · obtain ⟨w, c, hwon⟩ := stands hrace
      exact hwon.decided hended
    · obtain ⟨s'', hnearing, hended⟩ :=
        hrace.ends reachable hdown hpresent opened (List.Subset.refl _)
      obtain ⟨w, c, hwon⟩ := stands (hrace.nearing hnearing)
      exact ⟨s'', hrace.nearing hnearing, hnearing.run, hwon.decided hended⟩

open Server (quietObservers visitor)

def racing? (behaviour : Behaviour) : List Action → List (Nat × Nat) × Client →
    Option (List (Nat × Nat) × Client)
  | [], p => some p
  | a :: as, (opened, s) =>
      (s.step behaviour a).bind fun s' =>
        if s.isConnected && !s'.isConnected then none
        else racing? behaviour as (opened ++ opening s s' a, s')

theorem race_of_racing {as : List Action} {p : List (Nat × Nat) × Client}
    (h : Race behaviour s₀ opened s) (ha : ∀ a ∈ as, a ≠ .begin .close)
    (hs : racing? behaviour as (opened, s) = some p) : Race behaviour s₀ p.1 p.2 := by
  induction as generalizing opened s with
  | nil => exact Option.some.inj hs ▸ h
  | cons a as ih =>
    obtain ⟨s', h', hs⟩ := Option.bind_eq_some_iff.mp hs
    split at hs
    · exact absurd hs nofun
    · rename_i hstays
      refine ih (h.step a h' (ha a List.mem_cons_self) fun hup => ?_)
        (fun b hb => ha b (List.mem_cons_of_mem a hb)) hs
      simpa [hup] using hstays

def desertion : List Action :=
  [.begin (.connect "127.0.0.1" 9), .connected 0 visitor, .on 0 (.finish .finished), .on 0 .look,
    .on 0 .read]

def deserted : Client :=
  (steps? quietObservers desertion { config := {} }).getD { config := {} }

def rivalry : List Action :=
  [.begin (.connect "127.0.0.1" 9), .begin (.connect "127.0.0.1" 9), .connected 1 visitor,
    .connected 2 visitor]

def resolution : List Action :=
  [.on 0 (.obtainClosing 1), .on 0 (.halt 1 .halted), .on 0 (.finishClose 1), .resume 1,
    .on 2 (.obtainClosing 0), .on 2 (.halt 0 .halted), .on 2 (.finishClose 0), .resume 2]

def resolved : Client :=
  (steps? quietObservers (rivalry ++ resolution) deserted).getD deserted

theorem one_of_two_rivals_wins :
    (∃ s, Race quietObservers deserted [(1, 1), (2, 2)] s ∧
      Decided quietObservers [(1, 1), (2, 2)] s) ∧
      resolved.slot = some 1 ∧ ∃ x, resolved.connections[2]? = some x ∧ x.WasClosed := by
  have reachable : Reachable quietObservers deserted := reachable_of_steps {} desertion rfl
  obtain ⟨s, race, present⟩ :
      ∃ s, Race quietObservers deserted [(1, 1), (2, 2)] s ∧ s.isAborted = false := by
    have run : racing? quietObservers rivalry ([], deserted) = some ([(1, 1), (2, 2)], _) := rfl
    exact ⟨_, race_of_racing .start (by simp [rivalry]) run, rfl⟩
  obtain ⟨-, decided⟩ := one_connection_is_active quietObservers reachable
  obtain ⟨-, ends⟩ := decided rfl _ _ race nofun
  obtain ⟨s', race', -, hdecided⟩ := ends present
  have reachable' : Reachable quietObservers resolved :=
    (run_of_steps (rivalry ++ resolution) rfl).reachable reachable
  obtain ⟨active, -⟩ := one_connection_is_active quietObservers reachable'
  refine ⟨⟨s', race', hdecided⟩, (active 1 _ rfl).1 rfl rfl, _, rfl,
    (active 2 _ rfl).2 (by decide) fun t job ht => ?_⟩
  have released : ∀ job ∈ resolved.tasks, closes? job ≠ some 2 := by decide
  exact released job (List.mem_of_getElem? ht)

end Fanout.Client
