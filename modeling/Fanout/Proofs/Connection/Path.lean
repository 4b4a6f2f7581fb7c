import Fanout.Proofs.Connection.Run

namespace Fanout.Connection

def Advances (c c' : Connection) : Prop :=
  ∃ (σ : Type) (tell : Sink σ) (a : Action) (s s' : σ), c.step tell a s = some (c', s')

def Path : Connection → Connection → Prop :=
  Relation.ReflTransGen Advances

variable {σ : Type} {tell : Sink σ} {c c' x y : Connection} {i : Nat} {xs ys zs : List Connection}

theorem Advances.turn (h : Advances c c') : ∃ a, Turn c a c' := by
  obtain ⟨σ, tell, a, s, s', hs⟩ := h
  exact ⟨a, turn_of_step hs⟩

theorem Path.keeps {P : Connection → Prop} (hp : Path c c') (h : P c)
    (turn : ∀ {x x' : Connection} {a : Action}, P x → Turn x a x' → P x') : P c' := by
  induction hp with
  | refl => exact h
  | tail _ hn ih =>
    obtain ⟨a, ht⟩ := hn.turn
    exact turn ih ht

theorem Path.step {a : Action} {s s' : σ} (h : c.step tell a s = some (c', s')) : Path c c' :=
  .single ⟨σ, tell, a, s, s', h⟩

def deaf : Sink Unit := fun _ _ s => (s, .returned)

theorem Path.listen (c : Connection) : Path c c.listen.1 :=
  .single ⟨Unit, deaf, .listen, (), (), rfl⟩

theorem Path.send (c : Connection) (payload : List UInt8) : Path c (c.beginSend payload) :=
  .single ⟨Unit, deaf, .send payload, (), (), rfl⟩

theorem Path.close (c : Connection) : Path c c.beginClose :=
  .single ⟨Unit, deaf, .close, (), (), rfl⟩

theorem Reachable.path (h : Reachable c) (hp : Path c c') : Reachable c' := by
  induction hp with
  | refl => exact h
  | tail _ hg ih =>
    obtain ⟨σ, tell, a, s, s', hs⟩ := hg
    exact .step tell a ih hs

theorem Run.path {p q : Connection × σ} (h : Run tell p q) : Path p.1 q.1 :=
  h.lift Prod.fst fun p q ⟨a, ha⟩ => ⟨σ, tell, a, p.2, q.2, ha⟩

/-- The connections that somebody holds, before and after some steps of his: each goes on by steps
of its own, and each that has come could have come to be so on its own. -/
structure Flows (xs ys : List Connection) : Prop where
  onward : ∀ {i : Nat} {x : Connection}, xs[i]? = some x → ∃ y, ys[i]? = some y ∧ Path x y
  origin : ∀ {i : Nat} {y : Connection}, ys[i]? = some y →
    Reachable y ∨ ∃ x, xs[i]? = some x ∧ Path x y

namespace Flows

theorem refl (xs : List Connection) : Flows xs xs :=
  ⟨fun hx => ⟨_, hx, .refl⟩, fun hy => .inr ⟨_, hy, .refl⟩⟩

theorem trans (h : Flows xs ys) (h' : Flows ys zs) : Flows xs zs where
  onward hx := by
    obtain ⟨y, hy, hxy⟩ := h.onward hx
    obtain ⟨z, hz, hyz⟩ := h'.onward hy
    exact ⟨z, hz, hxy.trans hyz⟩
  origin hz := by
    rcases h'.origin hz with hr | ⟨y, hy, hyz⟩
    · exact .inl hr
    · rcases h.origin hy with hr | ⟨x, hx, hxy⟩
      · exact .inl (hr.path hyz)
      · exact .inr ⟨x, hx, hxy.trans hyz⟩

theorem set (hx : xs[i]? = some x) (hp : Path x y) : Flows xs (xs.set i y) where
  onward {j z} hz := by
    by_cases hji : j = i
    · subst hji
      obtain rfl := Option.some.inj (hx.symm.trans hz)
      exact ⟨y, (getElem?_set_eq_some hx).mpr (.inl ⟨rfl, rfl⟩), hp⟩
    · exact ⟨z, (getElem?_set_eq_some hx).mpr (.inr ⟨hji, hz⟩), .refl⟩
  origin hz := by
    rcases (getElem?_set_eq_some hx).mp hz with ⟨rfl, rfl⟩ | ⟨-, hold⟩
    · exact .inr ⟨x, hx, hp⟩
    · exact .inr ⟨_, hold, .refl⟩

theorem concat (xs : List Connection) (hy : Reachable y) : Flows xs (xs ++ [y]) where
  onward hx := ⟨_, getElem?_concat_eq_some.mpr (.inr hx), .refl⟩
  origin hz := by
    rcases getElem?_concat_eq_some.mp hz with ⟨-, rfl⟩ | hold
    · exact .inl hy
    · exact .inr ⟨_, hold, .refl⟩

theorem reachable (h : Flows [] ys) (hy : ys[i]? = some y) : Reachable y := by
  rcases h.origin hy with hr | ⟨x, hx, -⟩
  · exact hr
  · exact absurd hx (by simp)

end Flows

end Fanout.Connection
