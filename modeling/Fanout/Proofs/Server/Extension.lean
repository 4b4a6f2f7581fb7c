import Fanout.Proofs.Server.Turn

namespace Fanout.Server

def Calls (s : Server) (t c : Nat) : Prop :=
  s.isGiven c = true ∨ ∃ job, s.tasks[t]? = some job ∧ job.own? = some c

def Grows (s : Server) (t : Nat) (connections : List Connection) : Prop :=
  ∀ {c : Nat} {x : Connection}, s.connections[c]? = some x →
    ∃ x', connections[c]? = some x' ∧
      (x' = x ∨ ∃ a, Connection.Turn x a x' ∧ (a.isCall = true → s.Calls t c))

/-- What the other tasks notice of a step of task `t`. -/
structure Extends (s : Server) (t : Nat) (s' : Server) : Prop where
  connections : s.Grows t s'.connections
  registry : s'.registry = s.registry ∨ s.lock.isHeldBy t = true
  kept : ∀ {c : Nat}, c ∈ s.registry → c ∈ s'.registry ∨ s'.IsShut c

variable {s s' s₁ : Server} {t u c call place : Nat} {job job' : Job} {x x' : Connection}

theorem grows_same (t : Nat) : s.Grows t s.connections := fun hx => ⟨_, hx, .inl rfl⟩

theorem grows_concat (t : Nat) (x : Connection) : s.Grows t (s.connections ++ [x]) := fun hx =>
  ⟨_, getElem?_concat_eq_some.mpr (.inr hx), .inl rfl⟩

theorem grows_set {a : Connection.Action} (hx : s.connections[c]? = some x)
    (ht : Connection.Turn x a x') (hcall : a.isCall = true → s.Calls t c) :
    s.Grows t (s.connections.set c x') := by
  intro d y hy
  by_cases hd : d = c
  · subst hd
    obtain rfl := Option.some.inj (hx.symm.trans hy)
    exact ⟨x', (getElem?_set_eq_some hx).mpr (.inl ⟨rfl, rfl⟩), .inr ⟨a, ht, hcall⟩⟩
  · exact ⟨y, (getElem?_set_eq_some hx).mpr (.inr ⟨hd, hy⟩), .inl rfl⟩

theorem isShut_of_grows {connections : List Connection} (hg : s.Grows t connections)
    (hs' : s'.connections = connections) (h : s.IsShut c) : s'.IsShut c := by
  obtain ⟨x, hx, hshut⟩ := h
  obtain ⟨x', hx', rfl | ⟨a, ht, -⟩⟩ := hg hx
  · exact ⟨x', hs' ▸ hx', hshut⟩
  · exact ⟨x', hs' ▸ hx', hshut.turn ht⟩

namespace Extends

theorem isShut (he : s.Extends t s') (h : s.IsShut c) : s'.IsShut c :=
  isShut_of_grows he.connections rfl h

theorem closes (he : s.Extends t s') (hr : s'.registry = s.registry) (h : s.Closes place call) :
    s'.Closes place call := by
  obtain ⟨c, x, p, hp, hx, hcall⟩ := h
  obtain ⟨x', hx', rfl | ⟨a, ht, -⟩⟩ := he.connections hx
  · exact ⟨c, x', p, hr ▸ hp, hx', hcall⟩
  · rcases ht.call_onward hcall with hsame | ⟨call', hnew, hm⟩
    · exact ⟨c, x', p, hr ▸ hp, hx', hsame⟩
    · cases hm with
      | obtainClosing | halt | finishClose => exact ⟨c, x', _, hr ▸ hp, hx', hnew⟩

theorem registry_of_holding (h : s.Sound) (he : s.Extends t s') (hu : s.tasks[u]? = some job)
    (hut : u ≠ t) (hj : job.standing = .holding) : s'.registry = s.registry := by
  refine he.registry.resolve_right fun held => hut ?_
  have hheld := h.lock.held u (by simp [hu, hj])
  exact Lock.isHeldBy_unique hheld held

theorem uncalled (h : s.Sound) (he : s.Extends t s') (hu : s.tasks[u]? = some job) (hut : u ≠ t)
    (ho : job.own? = some c) (hj : job ≠ .done (.accepted c)) (hx : s.connections[c]? = some x) :
    ∃ x', s'.connections[c]? = some x' ∧
      (x' = x ∨ ∃ a, Connection.Turn x a x' ∧ a.isCall = false) := by
  obtain ⟨x', hx', hsame | ⟨a, ht, hcall⟩⟩ := he.connections hx
  · exact ⟨x', hx', .inl hsame⟩
  · refine ⟨x', hx', .inr ⟨a, ht, Bool.eq_false_iff.mpr fun ha => ?_⟩⟩
    rcases hcall ha with hg | ⟨job', ht', ho'⟩
    · rw [h.not_given hu ho hj] at hg
      exact Bool.false_ne_true hg
    · exact hut (h.owned hu ht' ho ho')

theorem fits (h : s.Sound) (he : s.Extends t s') (hu : s.tasks[u]? = some job) (hut : u ≠ t) :
    s'.Fits job := by
  have hf := h.fits hu
  have same (hj : job.standing = .holding) : s'.registry = s.registry :=
    he.registry_of_holding h hu hut hj
  match job with
  | .register l c =>
    obtain ⟨x, hx, hun⟩ := hf
    obtain ⟨x', hx', rfl | ⟨a, ht, ha⟩⟩ := he.uncalled h hu hut rfl nofun hx
    · exact ⟨x', hx', hun⟩
    · exact ⟨x', hx', hun.turn (h.connections hx) ht ha⟩
  | .refuse c call e =>
    obtain ⟨hcall, he', x, hx, hun⟩ := hf
    obtain ⟨x', hx', rfl | ⟨a, ht, ha⟩⟩ := he.uncalled h hu hut rfl nofun hx
    · exact ⟨hcall, he', x', hx', hun⟩
    · exact ⟨hcall, he', x', hx', hun.turn ht ha⟩
  | .done (.accepted c) =>
    obtain ⟨x, hx, hc⟩ := hf
    obtain ⟨x', hx', -⟩ := he.connections hx
    refine ⟨x', hx', ?_⟩
    have shut (hs : s'.IsShut c) : x'.Shut := by
      obtain ⟨x'', hx'', hshut⟩ := hs
      obtain rfl := Option.some.inj (hx'.symm.trans hx'')
      exact hshut
    rcases hc with hc | hc
    · exact (he.kept hc).imp_right shut
    · exact .inr (shut (he.isShut ⟨x, hx, hc⟩))
  | .broadcast payload (some (place, call)) =>
    have hr := same rfl
    obtain ⟨c, hp⟩ := hf
    exact ⟨c, hr ▸ hp⟩
  | .sendTo address payload (some (c, call)) =>
    have hc : c ∈ s.registry := hf
    have hc' : c ∈ s'.registry := same rfl ▸ hc
    exact hc'
  | .reap evicted (some (place, call)) => exact he.closes (same rfl) hf
  | .reaper cancelled next (some (evicted, some (place, call))) => exact he.closes (same rfl) hf
  | .closeAll listener failure (some (place, call)) =>
    have hr := same rfl
    refine ⟨he.closes hr hf.1, ?_⟩
    intro earlier c hlt hc
    exact he.isShut (hf.2 earlier c hlt (hr ▸ hc))
  | .accept .. | .broadcast _ none | .sendTo _ _ none | .send .. | .close .. | .reap _ none
  | .reaper _ _ none | .reaper _ _ (some (_, none)) | .stopReaper .. | .closeAll _ _ none
  | .count | .list | .crashed => trivial
  | .done .ok | .done (.number _) | .done (.infos _) | .done (.returned _) | .done (.failed _) =>
    trivial

end Extends

theorem extends_of_same (hc : s'.connections = s.connections) (hr : s'.registry = s.registry) :
    s.Extends t s' where
  connections := by
    rw [hc]
    exact grows_same t
  registry := .inl hr
  kept hm := .inl (hr ▸ hm)

theorem Extends.setConnection {a : Connection.Action} (he : s.Extends t s₁)
    (hc : s₁.connections = s.connections) (hx : s.connections[c]? = some x)
    (ht : Connection.Turn x a x') (hcall : a.isCall = true → s.Calls t c) :
    s.Extends t (s₁.setConnection c x') where
  connections := by
    simp only [Server.setConnection, hc]
    exact grows_set hx ht hcall
  registry := he.registry
  kept hm := (he.kept hm).imp_right fun hs => by
    refine isShut_of_grows (s := s) (t := t) (grows_set hx ht hcall) ?_ ?_
    · simp only [Server.setConnection, hc]
    · simpa only [IsShut, hc] using hs

theorem extends_setConnection {a : Connection.Action} (hx : s.connections[c]? = some x)
    (ht : Connection.Turn x a x') (hcall : a.isCall = true → s.Calls t c) :
    s.Extends t (s.setConnection c x') :=
  (extends_of_same rfl rfl).setConnection rfl hx ht hcall

end Fanout.Server
