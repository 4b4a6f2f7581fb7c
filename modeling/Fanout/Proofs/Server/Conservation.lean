import Fanout.Proofs.Server.Amendment
import Mathlib.Data.List.Nodup

namespace Fanout.Server

variable {behaviour : Behaviour} {s s' s₁ : Server} {c : Nat} {a : Action} {as : List Action}
  {past : List Nat}

def givenBy (s s' : Server) : List Nat :=
  (List.range s'.connections.length).filter fun c => s'.isGiven c && !s.isGiven c

def enrolled (behaviour : Behaviour) : List Action → Server → List Nat
  | [], _ => []
  | a :: as, s =>
    match s.step behaviour a with
    | some s' => givenBy s s' ++ enrolled behaviour as s'
    | none => []

theorem enrolled_cons (h : s.step behaviour a = some s') (as : List Action) :
    enrolled behaviour (a :: as) s = givenBy s s' ++ enrolled behaviour as s' := by
  simp [enrolled, h]

theorem filter_range_eq {n : Nat} {p : Nat → Bool} (hc : c < n) (hp : ∀ d, p d = true ↔ d = c) :
    (List.range n).filter p = [c] := by
  have hbeq : p = (· == c) := funext fun d => by rw [Bool.eq_iff_iff, hp, beq_iff_eq]
  have hcount : (List.range n).count c = 1 :=
    List.count_eq_one_of_mem List.nodup_range (List.mem_range.mpr hc)
  rw [hbeq, List.filter_beq, hcount]
  rfl

theorem givenBy_of_accepts (h : s.Sound) (ht : Turn behaviour s a s') (ha : s.Accepts a s' c) :
    givenBy s s' = [c] := by
  obtain ⟨x, hx, -⟩ := (h.turn ht).given_fits ha.given
  refine filter_range_eq (List.getElem?_eq_some_iff.mp hx).1 fun d => ?_
  simp only [Bool.and_eq_true, Bool.not_eq_true']
  constructor
  · rintro ⟨hnew, hold⟩
    rcases ht.given_origin h hnew with hgiven | ha'
    · exact absurd hgiven (by simp [hold])
    · exact ha.unique ha'
  · rintro rfl
    exact ⟨ha.given, ha.not_given h⟩

theorem givenBy_eq_nil (h : s.Sound) (ht : Turn behaviour s a s')
    (hno : ∀ c, ¬ s.Accepts a s' c) : givenBy s s' = [] := by
  refine List.filter_eq_nil_iff.mpr fun d _ => ?_
  simp only [Bool.and_eq_true, Bool.not_eq_true', not_and, Bool.not_eq_false]
  exact fun hnew => (ht.given_origin h hnew).resolve_right (hno d)

structure Enrolled (past : List Nat) (s : Server) : Prop where
  nodup : past.Nodup
  sublist : s.registry.Sublist past
  mem_iff : ∀ c, c ∈ past ↔ s.isGiven c = true

theorem enrolled_new (config : ServerConfig) : Enrolled [] { config } where
  nodup := .nil
  sublist := .slnil
  mem_iff := by simp [isGiven]

theorem Amends.sublist (h : s.Amends a s') (hno : ∀ c, ¬ s.Accepts a s' c) :
    s'.registry.Sublist s.registry := by
  cases h with
  | keeps hr => exact hr ▸ .refl _
  | enlists ha => exact absurd ha (hno _)
  | evicts _ _ _ hr => exact hr ▸ List.eraseIdx_sublist _ _
  | empties _ _ hr => exact hr ▸ List.nil_sublist _

theorem Enrolled.turn (h : Enrolled past s) (hs : s.Sound) (htrail : s.Trailed)
    (ht : Turn behaviour s a s') : Enrolled (past ++ givenBy s s') s' := by
  by_cases hacc : ∃ c, s.Accepts a s' c
  · obtain ⟨c, ha⟩ := hacc
    have hfresh : c ∉ past := by
      rw [h.mem_iff, ha.not_given hs]
      exact Bool.false_ne_true
    rw [givenBy_of_accepts hs ht ha]
    refine ⟨?_, ?_, ?_⟩
    · refine List.nodup_append.mpr ⟨h.nodup, by simp, ?_⟩
      intro d hd e he
      rw [List.mem_singleton.mp he]
      exact fun heq => hfresh (heq ▸ hd)
    · rw [ha.registry hs ht]
      exact h.sublist.append_right [c]
    · intro d
      rw [List.mem_append, List.mem_singleton, h.mem_iff]
      constructor
      · rintro (hgiven | rfl)
        · exact ht.given_mono hs hgiven
        · exact ha.given
      · exact fun hgiven => (ht.given_origin hs hgiven).imp_right ha.unique
  · have hno : ∀ c, ¬ s.Accepts a s' c := fun c ha => hacc ⟨c, ha⟩
    rw [givenBy_eq_nil hs ht hno, List.append_nil]
    refine ⟨h.nodup, ((ht.amends hs htrail).sublist hno).trans h.sublist, ?_⟩
    intro d
    rw [h.mem_iff]
    exact ⟨ht.given_mono hs, fun hgiven => (ht.given_origin hs hgiven).resolve_right (hno d)⟩

theorem enrolled_steps (h : Enrolled past s) (hs : s.Sound) (htrail : s.Trailed)
    (run : steps? behaviour as s = some s') :
    s'.Sound ∧ s'.Trailed ∧ Enrolled (past ++ enrolled behaviour as s) s' := by
  induction as generalizing s past with
  | nil =>
    obtain rfl := Option.some.inj run
    exact ⟨hs, htrail, by simpa [enrolled] using h⟩
  | cons a as ih =>
    obtain ⟨s₁, hstep, run⟩ := Option.bind_eq_some_iff.mp run
    have ht := hs.turn_of_step hstep
    rw [enrolled_cons hstep, ← List.append_assoc]
    exact ih (h.turn hs htrail ht) (hs.turn ht) (htrail.turn hs ht) run

theorem enrolled_of_reachable (h : Reachable behaviour s) : ∃ past, Enrolled past s := by
  induction h with
  | new config => exact ⟨[], enrolled_new config⟩
  | step a hreach hs ih =>
    obtain ⟨past, henrolled⟩ := ih
    have hsound := sound_of_reachable hreach
    have ht := hsound.turn_of_step hs
    exact ⟨_, henrolled.turn hsound (trailed_of_reachable hreach) ht⟩

theorem registry_nodup (h : Reachable behaviour s) : s.registry.Nodup := by
  obtain ⟨past, henrolled⟩ := enrolled_of_reachable h
  exact henrolled.nodup.sublist henrolled.sublist

/-- A reap, the reaper or a shutdown takes a connection out of the registry that is disconnected and
that has been closed. -/
structure Removes (s : Server) (a : Action) (s' : Server) (c : Nat) : Prop where
  clears : a.Clears s
  closed : ∃ x, s.connections[c]? = some x ∧ x.phase = .disconnected ∧
    ∃ (call : Nat) (failure : Failure), x.calls[call]? = some (.close (.done failure))
  present : c ∈ s.registry
  gone : c ∉ s'.registry

def Removed (behaviour : Behaviour) (as : List Action) (s : Server) (c : Nat) : Prop :=
  ∃ before a after s₁ s₂, as = before ++ a :: after ∧ steps? behaviour before s = some s₁ ∧
    s₁.step behaviour a = some s₂ ∧ s₁.Removes a s₂ c

theorem Amends.added (h : s.Amends a s') (hc : c ∈ s'.registry) :
    c ∈ s.registry ∨ s.Accepts a s' c := by
  cases h with
  | keeps hr => exact .inl (hr ▸ hc)
  | enlists ha hr =>
    rw [hr, List.mem_append, List.mem_singleton] at hc
    rcases hc with hold | rfl
    · exact .inl hold
    · exact .inr ha
  | evicts _ _ _ hr =>
    rw [hr] at hc
    exact .inl (List.mem_of_mem_eraseIdx hc)
  | empties _ _ hr => simp [hr] at hc

theorem Amends.removes (h : s.Amends a s') (hc : c ∈ s.registry) (hgone : c ∉ s'.registry) :
    s.Removes a s' c := by
  cases h with
  | keeps hr => exact absurd (hr ▸ hc) hgone
  | enlists _ hr => exact absurd (hr ▸ List.mem_append_left _ hc) hgone
  | @evicts place d ha hp hclosed hr =>
    obtain ⟨i, hi⟩ := List.mem_iff_getElem?.mp hc
    have hplace : i = place := by
      refine Classical.byContradiction fun hne => hgone ?_
      rw [hr]
      exact List.mem_eraseIdx_iff_getElem?.mpr ⟨i, hne, hi⟩
    subst hplace
    obtain rfl := Option.some.inj (hp.symm.trans hi)
    exact ⟨ha, hclosed, hc, hgone⟩
  | empties ha hclosed _ => exact ⟨ha, hclosed c hc, hc, hgone⟩

theorem Removed.cons (h : Removed behaviour as s₁ c) (hstep : s.step behaviour a = some s₁) :
    Removed behaviour (a :: as) s c := by
  obtain ⟨before, b, after, s₂, s₃, rfl, hbefore, hb, hremoves⟩ := h
  exact ⟨a :: before, b, after, s₂, s₃, rfl, Option.bind_eq_some_iff.mpr ⟨s₁, hstep, hbefore⟩, hb,
    hremoves⟩

theorem registered_or_removed (hs : s.Sound) (htrail : s.Trailed)
    (run : steps? behaviour as s = some s') (hc : s.isGiven c = true → c ∈ s.registry)
    (hg : s'.isGiven c = true) : c ∈ s'.registry ∨ Removed behaviour as s c := by
  -- What has been given out is registered until it is removed; by induction on the run, from its
  -- first step on.
  induction as generalizing s with
  | nil =>
    obtain rfl := Option.some.inj run
    exact .inl (hc hg)
  | cons a as ih =>
    obtain ⟨s₁, hstep, run⟩ := Option.bind_eq_some_iff.mp run
    have ht := hs.turn_of_step hstep
    have hamends := ht.amends hs htrail
    by_cases hin : c ∈ s.registry ∧ c ∉ s₁.registry
    · exact .inr ⟨[], a, as, s, s₁, rfl, rfl, hstep, hamends.removes hin.1 hin.2⟩
    · refine (ih (hs.turn ht) (htrail.turn hs ht) run ?_).imp_right (·.cons hstep)
      intro hgiven
      rcases ht.given_origin hs hgiven with hold | ha
      · exact Classical.byContradiction fun hgone => hin ⟨hc hold, hgone⟩
      · rw [ha.registry hs ht]
        exact List.mem_append_right _ List.mem_cons_self

theorem registry_is_conserved {config : ServerConfig}
    (run : steps? behaviour as { config } = some s) :
    s.registry.Sublist (enrolled behaviour as { config }) ∧
      (enrolled behaviour as { config }).Nodup ∧
      (∀ c, c ∈ enrolled behaviour as { config } ↔ s.isGiven c = true) ∧
      (∀ c, s.isGiven c = true → s.registry.count c = 1 ∨
        s.registry.count c = 0 ∧ Removed behaviour as { config } c) ∧
      ∀ a s', s.step behaviour a = some s' →
        (∀ c, s.Accepts a s' c → s'.registry = s.registry ++ [c]) ∧
        (∀ c ∈ s'.registry, c ∈ s.registry ∨ s.Accepts a s' c) ∧
        (∀ c ∈ s.registry, c ∈ s'.registry ∨ s.Removes a s' c) ∧
        ((∀ c, ¬ s.Accepts a s' c) → ¬ a.Clears s → s'.registry = s.registry) := by
  obtain ⟨hs, htrail, henrolled⟩ :=
    enrolled_steps (enrolled_new config) (sound_new config) (trailed_new config) run
  rw [List.nil_append] at henrolled
  refine ⟨henrolled.sublist, henrolled.nodup, henrolled.mem_iff, ?_, ?_⟩
  · intro c hg
    by_cases hin : c ∈ s.registry
    · exact .inl (List.count_eq_one_of_mem (henrolled.nodup.sublist henrolled.sublist) hin)
    · refine .inr ⟨List.count_eq_zero_of_not_mem hin, ?_⟩
      refine (registered_or_removed (sound_new config) (trailed_new config) run ?_ hg).resolve_left
        hin
      simp [isGiven]
  · intro a s' hstep
    have ht := hs.turn_of_step hstep
    have hamends := ht.amends hs htrail
    refine ⟨fun c ha => ha.registry hs ht, fun c => hamends.added, ?_, ?_⟩
    · intro c hc
      by_cases hin : c ∈ s'.registry
      · exact .inl hin
      · exact .inr (hamends.removes hc hin)
    · intro hno hclears
      cases hamends with
      | keeps hr => exact hr
      | enlists ha => exact absurd ha (hno _)
      | evicts ha => exact absurd ha hclears
      | empties ha => exact absurd ha hclears

def parting : List Action :=
  opening ++
    [.resume 0, .begin (.accept 0), .connect 0 (visitorOn 10), .acceptPeer 1, .resume 1,
      .on 0 (.finish .finished), .on 0 .look, .on 0 .read, .begin .reap, .resume 2,
      .on 0 (.obtainClosing 1), .on 0 (.halt 1 .halted), .on 0 (.finishClose 1), .resume 2]

theorem departed_visitor_is_removed :
    ∃ s, steps? quietObservers parting { config := {} } = some s ∧ s.registry = [1] ∧
      enrolled quietObservers parting { config := {} } = [0, 1] ∧
      s.registry.Sublist (enrolled quietObservers parting { config := {} }) ∧
      Removed quietObservers parting { config := {} } 0 := by
  have run : steps? quietObservers parting { config := {} } = some _ := rfl
  obtain ⟨sublist, -, -, kept, -⟩ := registry_is_conserved run
  refine ⟨_, run, rfl, rfl, sublist, ?_⟩
  rcases kept 0 rfl with once | ⟨-, removed⟩
  · exact absurd once (by decide)
  · exact removed

end Fanout.Server
