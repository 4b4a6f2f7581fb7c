import Fanout.Proofs.Observer.Selection

namespace Fanout.Bus

variable {ds xs ys : List Deed} {d x y : Deed} {out : Outcome} {lo mid hi n i : Nat}
  {own : Option Nat} {e : Event} {h : Handler} {os : List Observer}

/-- A deed of one of the dispatches with these numbers, or of the one under way, which has begun. -/
def Deed.Within (own : Option Nat) (lo hi : Nat) (d : Deed) : Prop :=
  ∀ n, d.number? = some n → (lo ≤ n ∧ n < hi) ∨ own = some n ∧ ∀ e, d ≠ .began n e

def Deed.Avoids (d d' : Deed) : Prop :=
  ∀ n e, d' = .began n e → d.number? ≠ some n

theorem Deed.Within.widen {lo' hi' : Nat} (hd : d.Within own lo hi) (hlo : lo' ≤ lo)
    (hhi : hi ≤ hi') : d.Within own lo' hi' := by
  intro n hn
  refine (hd n hn).imp_left fun hr => ?_
  omega

theorem Deed.Within.adopt (hd : d.Within none lo hi) : d.Within own lo hi :=
  fun n hn => (hd n hn).imp_right fun hnone => absurd hnone.1 nofun

theorem Deed.Within.close (hd : d.Within (some lo) (lo + 1) hi) (hlo : lo < hi) :
    d.Within none lo hi := by
  intro n hn
  rcases hd n hn with hr | ⟨hown, -⟩
  · exact .inl (by omega)
  · obtain rfl := Option.some.inj hown
    exact .inl ⟨Nat.le_refl _, hlo⟩

theorem Deed.Within.of_began (hd : (Deed.began n e).Within own lo hi) : lo ≤ n ∧ n < hi :=
  (hd n rfl).resolve_right fun hown => hown.2 e rfl

theorem Deed.Within.avoids_later (hx : x.Within own lo mid) (hy : y.Within own mid hi)
    (hown : ∀ n, own = some n → n < lo) (hle : lo ≤ mid) : x.Avoids y := by
  rintro n e rfl hn
  have hbegan := hy.of_began
  rcases hx n hn with hr | ⟨heq, -⟩
  · omega
  · have := hown n heq
    omega

theorem Deed.Within.avoids_earlier (hx : x.Within own lo mid) (hy : y.Within own mid hi)
    (hown : ∀ n, own = some n → n < lo) : y.Avoids x := by
  rintro n e rfl hn
  have hbegan := hx.of_began
  rcases hy n hn with hr | ⟨heq, -⟩
  · omega
  · have := hown n heq
    omega

def Conducts (os : List Observer) (n : Nat) (e : Event) (rest : List Deed) : Prop :=
  ∃ during out later, rest = during ++ .ended n out :: later ∧
    (∀ d ∈ later, d.number? ≠ some n) ∧ Attends os n e during out

def Conducted : List Observer → List Deed → Prop
  | _, [] => True
  | os, d :: ds =>
      (∀ n e, d = .began n e → Conducts os n e ds) ∧
        Conducted (os ++ d.subscription?.toList) ds

theorem Conducts.append {rest : List Deed} (hc : Conducts os n e rest)
    (hys : ∀ d ∈ ys, d.number? ≠ some n) : Conducts os n e (rest ++ ys) := by
  obtain ⟨during, out, later, rfl, hlater, hattends⟩ := hc
  exact ⟨during, out, later ++ ys, by rw [List.append_assoc, List.cons_append],
    List.forall_mem_append.mpr ⟨hlater, hys⟩, hattends⟩

theorem Conducted.append (hx : Conducted os xs) (hy : Conducted (os ++ subscriptions xs) ys)
    (havoids : ∀ x ∈ xs, ∀ y ∈ ys, y.Avoids x) : Conducted os (xs ++ ys) := by
  induction xs generalizing os with
  | nil => exact List.append_nil os ▸ hy
  | cons x xs ih =>
    obtain ⟨hfirst, hrest⟩ := List.forall_mem_cons.mp havoids
    refine ⟨fun n e heq => (hx.1 n e heq).append fun y hm => hfirst y hm n e heq, ?_⟩
    rw [subscriptions_cons, ← List.append_assoc] at hy
    exact ih hx.2 hy hrest

theorem Conducted.conducts {before rest : List Deed}
    (hc : Conducted os (before ++ .began n e :: rest)) :
    Conducts (os ++ subscriptions before) n e rest := by
  induction before generalizing os with
  | nil => exact (List.append_nil os).symm ▸ hc.1 n e rfl
  | cons d before ih =>
    rw [subscriptions_cons, ← List.append_assoc]
    exact ih hc.2

structure Tidy (own : Option Nat) (lo hi : Nat) (os : List Observer) (ds : List Deed) : Prop where
  begun : ∀ n, own = some n → n < lo
  le : lo ≤ hi
  within : ∀ d ∈ ds, d.Within own lo hi
  fresh : ds.Pairwise Deed.Avoids
  conducted : Conducted os ds

namespace Tidy

theorem nil (hbegun : ∀ n, own = some n → n < lo) : Tidy own lo lo os [] where
  begun := hbegun
  le := Nat.le_refl _
  within := nofun
  fresh := .nil
  conducted := trivial

theorem cons (ht : Tidy own lo hi (os ++ d.subscription?.toList) ds)
    (hown : ∀ n, d.number? = some n → own = some n) (hnot : ∀ n e, d ≠ .began n e) :
    Tidy own lo hi os (d :: ds) where
  begun := ht.begun
  le := ht.le
  within := List.forall_mem_cons.mpr ⟨fun n hn => .inr ⟨hown n hn, hnot n⟩, ht.within⟩
  fresh := by
    have hd : d.Within own lo lo := fun n hn => .inr ⟨hown n hn, hnot n⟩
    exact .cons (fun y hm => hd.avoids_later (ht.within y hm) ht.begun (Nat.le_refl _)) ht.fresh
  conducted := ⟨fun n e heq => absurd heq (hnot n e), ht.conducted⟩

theorem cons_plain (ht : Tidy own lo hi os ds) (hnone : d.subscription? = none)
    (hown : ∀ n, d.number? = some n → own = some n) (hnot : ∀ n e, d ≠ .began n e) :
    Tidy own lo hi os (d :: ds) := by
  have hos : os ++ d.subscription?.toList = os := by
    rw [hnone]
    exact List.append_nil os
  exact (hos.symm ▸ ht).cons hown hnot

theorem append (hx : Tidy own lo mid os xs) (hy : Tidy own mid hi (os ++ subscriptions xs) ys) :
    Tidy own lo hi os (xs ++ ys) where
  begun := hx.begun
  le := Nat.le_trans hx.le hy.le
  within := List.forall_mem_append.mpr
    ⟨fun x hm => (hx.within x hm).widen (Nat.le_refl _) hy.le,
      fun y hm => (hy.within y hm).widen hx.le (Nat.le_refl _)⟩
  fresh := List.pairwise_append.mpr ⟨hx.fresh, hy.fresh, fun x hm y hm' =>
    (hx.within x hm).avoids_later (hy.within y hm') hx.begun hx.le⟩
  conducted := hx.conducted.append hy.conducted fun x hm y hm' =>
    (hx.within x hm).avoids_earlier (hy.within y hm') hx.begun

theorem adopt (ht : Tidy none lo hi os ds) (hbegun : ∀ n, own = some n → n < lo) :
    Tidy own lo hi os ds where
  begun := hbegun
  le := ht.le
  within d hm := (ht.within d hm).adopt
  fresh := ht.fresh
  conducted := ht.conducted

theorem call (hx : Tidy none lo mid os xs) (hy : Tidy (some n) mid hi (os ++ subscriptions xs) ys)
    (hlt : n < lo) : Tidy (some n) lo hi os (.called n i h e :: (xs ++ .left n i out :: ys)) := by
  have hleft : Tidy (some n) mid hi (os ++ subscriptions xs) (.left n i out :: ys) :=
    hy.cons_plain rfl (fun _ hm => hm) nofun
  have hbegun : ∀ m, some n = some m → m < lo := fun m hm => Option.some.inj hm ▸ hlt
  exact ((hx.adopt hbegun).append hleft).cons_plain rfl (fun _ hm => hm) nofun

theorem dispatch (ht : Tidy (some n) (n + 1) hi os ds) (ha : Attends os n e ds out) :
    Tidy none n hi os (.began n e :: (ds ++ [.ended n out])) := by
  have hbegun : ∀ m, some n = some m → m < hi := fun m hm => Option.some.inj hm ▸ ht.le
  have hrest : Tidy (some n) (n + 1) hi os (ds ++ [.ended n out]) :=
    ht.append ((nil hbegun).cons (fun _ hm => hm) nofun)
  have hwithin : ∀ d ∈ Deed.began n e :: (ds ++ [.ended n out]), d.Within none n hi := by
    refine List.forall_mem_cons.mpr ⟨?_, fun d hm => (hrest.within d hm).close ht.le⟩
    intro m hm
    obtain rfl := Option.some.inj hm
    exact .inl ⟨Nat.le_refl _, ht.le⟩
  refine ⟨nofun, Nat.le_of_lt ht.le, hwithin, .cons ?_ hrest.fresh, ?_, ?_⟩
  · rintro d hm m e' rfl heq
    obtain rfl := Option.some.inj heq
    exact absurd (hrest.within _ hm).of_began.1 (Nat.not_succ_le_self n)
  · intro m e' heq
    obtain ⟨rfl, rfl⟩ := Deed.began.inj heq
    exact ⟨ds, out, [], rfl, nofun, ha⟩
  · exact (List.append_nil os).symm ▸ hrest.conducted

end Tidy

end Fanout.Bus
