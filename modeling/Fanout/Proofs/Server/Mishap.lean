import Fanout.Proofs.Server.Clearing

namespace Fanout.Server

/-- No step makes a reaper panic. Here its task unwinds for a reason from outside, wherever it is,
and gives up the registry on its way. -/
def Panics (s : Server) (r : Nat) (s' : Server) : Prop :=
  (∃ cancelled next sweep, s.tasks[r]? = some (.reaper cancelled next sweep)) ∧ s' = s.crash r

inductive Frail (behaviour : Behaviour) : Server → Prop
  | new (config : ServerConfig) : Frail behaviour { config }
  | step {s s' : Server} (a : Action) :
      Frail behaviour s → s.step behaviour a = some s' → Frail behaviour s'
  | panic {s s' : Server} {r : Nat} : Frail behaviour s → s.Panics r s' → Frail behaviour s'

structure Orderly (s : Server) : Prop where
  sound : s.Sound
  trailed : s.Trailed
  engaged : s.Engaged

variable {behaviour : Behaviour} {s s' : Server} {t u r c : Nat} {job : Job} {a : Action}

theorem Reachable.frail (h : Reachable behaviour s) : Frail behaviour s := by
  induction h with
  | new config => exact .new config
  | step a _ hs ih => exact .step a ih hs

namespace Panics

theorem frame (h : s.Panics r s') :
    s'.registry = s.registry ∧ s'.connections = s.connections ∧ s'.listening = s.listening ∧
      s'.reaper = s.reaper := by
  obtain ⟨-, rfl⟩ := h
  exact ⟨rfl, rfl, rfl, rfl⟩

theorem tasks_iff (h : s.Panics r s') :
    s'.tasks[u]? = some job ↔ u = r ∧ job = .crashed ∨ u ≠ r ∧ s.tasks[u]? = some job := by
  obtain ⟨⟨_, _, _, hr⟩, rfl⟩ := h
  exact getElem?_set_eq_some hr

theorem kept (h : s.Panics r s') (hj : job.isReaper = false) (hu : s.tasks[u]? = some job) :
    s'.tasks[u]? = some job := by
  refine h.tasks_iff.mpr (.inr ⟨?_, hu⟩)
  rintro rfl
  obtain ⟨⟨_, _, _, hr⟩, -⟩ := h
  obtain rfl := Option.some.inj (hu.symm.trans hr)
  cases hj

theorem origin (h : s.Panics r s') (hj : job ≠ .crashed) (hu : s'.tasks[u]? = some job) :
    s.tasks[u]? = some job :=
  (h.tasks_iff.mp hu).elim (fun hnew => absurd hnew.2 hj) And.right

theorem isGiven (h : s.Panics r s') (hg : s.isGiven c = true) : s'.isGiven c = true := by
  obtain ⟨u, hu⟩ := isGiven_iff.mp hg
  exact isGiven_iff.mpr ⟨u, h.kept rfl hu⟩

theorem lock (h : s.Panics r s') (hs : s.Sound) : s'.lock.Serves (s'.tasks.map Job.standing) := by
  obtain ⟨⟨cancelled, next, sweep, hr⟩, rfl⟩ := h
  rw [crash_eq hs hr]
  exact hs.lock.map_set hr .crashed nofun

theorem sound (h : s.Panics r s') (hs : s.Sound) : s'.Sound where
  lock := h.lock hs
  connections hx := hs.connections (h.frame.2.1 ▸ hx)
  fits {u job} hu := by
    rcases h.tasks_iff.mp hu with ⟨-, rfl⟩ | ⟨-, hold⟩
    · trivial
    · exact fits_congr h.frame.2.1 h.frame.1 (hs.fits hold)
  owned {u v c job job'} hu hv ho ho' := by
    have old {w : Nat} {other : Job} (hw : s'.tasks[w]? = some other)
        (hown : other.own? = some c) : s.tasks[w]? = some other := by
      refine h.origin ?_ hw
      rintro rfl
      cases hown
    exact hs.owned (old hu ho) (old hv ho') ho ho'
  housed hx := by
    refine (hs.housed (h.frame.2.1 ▸ hx)).imp_right ?_
    rintro ⟨u, other, hu, ho⟩
    exact ⟨u, other, h.kept (Job.not_reaper_of_own ho) hu, ho⟩
  given hc := h.isGiven (hs.given (h.frame.1 ▸ hc))
  listening {l} hl := by
    obtain ⟨-, rfl⟩ := h
    exact hs.listening hl

theorem trailed (h : s.Panics r s') (htrail : s.Trailed) : s'.Trailed := by
  intro t place call listener first ht i c hi hc
  obtain ⟨x, hx, hclosed⟩ := htrail (h.origin nofun ht) i c hi (h.frame.1 ▸ hc)
  exact ⟨x, h.frame.2.1 ▸ hx, hclosed⟩

theorem engaged (h : s.Panics r s') (hengaged : s.Engaged) : s'.Engaged := by
  intro c hc
  obtain ⟨x, hx, hx'⟩ := hengaged c (h.frame.1 ▸ hc)
  exact ⟨x, h.frame.2.1 ▸ hx, hx'⟩

theorem stopped (h : s.Panics r s') (hs : s.Stopped) : s'.Stopped :=
  ⟨h.sound hs.sound, h.frame.2.2.1.trans hs.listening, h.frame.2.2.2.trans hs.reaper⟩

end Panics

namespace Orderly

theorem turn (h : s.Orderly) (ht : Turn behaviour s a s') : s'.Orderly := by
  obtain ⟨hs, htrail, hengaged⟩ := h
  exact ⟨hs.turn ht, htrail.turn hs ht, hengaged.turn hs htrail ht⟩

theorem step (h : s.Orderly) (hs : s.step behaviour a = some s') : s'.Orderly :=
  h.turn (h.sound.turn_of_step hs)

theorem panics (h : s.Orderly) (hp : s.Panics r s') : s'.Orderly := by
  obtain ⟨hs, htrail, hengaged⟩ := h
  exact ⟨hp.sound hs, hp.trailed htrail, hp.engaged hengaged⟩

end Orderly

theorem orderly_of_frail (h : Frail behaviour s) : s.Orderly := by
  induction h with
  | new config => exact ⟨sound_new config, trailed_new config, nofun⟩
  | step a _ hs ih => exact ih.step hs
  | panic _ hp ih => exact ih.panics hp

end Fanout.Server
