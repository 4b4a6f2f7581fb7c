import Fanout.Proofs.Observer.Ledger

namespace Fanout

def Notice.isFarewellOf (c : Nat) (e : Notice) : Bool :=
  e.connection == c && e.signal.isDisconnection

namespace Ledger

variable {behaviour : Behaviour} {a : Audience} {l l' l'' : Ledger} {c i : Nat}
  {x : Connection} {es : List Notice} {o : Observer}

structure Joins (l l' : Ledger) (i : Nat) (o : Observer) : Prop where
  before : l.bus.observers.length ≤ i
  after : l'.bus.observers[i]? = some o

theorem heard_since_joining (h : l.Logged) (hs : Step behaviour a l l') (hj : Joins l l' i o)
    (hrun : Steps behaviour a l' l'') (hr : l''.bus.Returned behaviour) :
    l''.bus.heard i = kept a o l'.log.length (l''.log.drop l'.log.length) := by
  obtain ⟨es, hlog, hd⟩ := hrun.onward
  have hr' : l'.bus.Returned behaviour := hr.mono hd.calls_le
  have hnothing : l'.bus.heard i = [] := (hs.unheard hr' hj.before).trans (h.orderly hj.before)
  rw [hd.heard hr hj.after, hnothing, List.nil_append, filterMap_callOf, (h.step hs).begun, hlog,
    List.drop_left]

def isFarewellOf (l : Ledger) (c : Nat) (h : Bus.Heard) : Bool :=
  l.log[h.dispatch]?.any (Notice.isFarewellOf c)

def hearsFarewell (a : Audience) (o : Observer) (host : String) : Bool :=
  (a == .client || o.filter == some host) && o.onDisconnect.isSome

theorem countP_kept (pre : List Notice) (hlog : l.log = pre ++ es) :
    (kept a o pre.length es).countP (l.isFarewellOf c) =
      es.countP fun e => e.isFarewellOf c && (callback? a o e.host e.signal).isSome := by
  induction es generalizing pre with
  | nil => rfl
  | cons e es ih =>
    have hat : l.log[pre.length]? = some e := by simp [hlog]
    have hrest := ih (pre ++ [e]) (by simpa using hlog)
    rw [List.length_append, List.length_singleton] at hrest
    rw [List.countP_cons, ← hrest, kept, List.zipIdx_cons, List.filterMap_cons]
    cases hc : callback? a o e.host e.signal with
    | none => simp [kept]
    | some handler => simp [kept, List.countP_cons, isFarewellOf, hat]

theorem Logged.callback_farewell (h : l.Logged) (hx : l.connections[c]? = some x) {e : Notice}
    (he : e ∈ l.log) (hf : e.isFarewellOf c = true) :
    (callback? a o e.host e.signal).isSome = hearsFarewell a o x.host := by
  simp only [Notice.isFarewellOf, Bool.and_eq_true, beq_iff_eq] at hf
  obtain ⟨y, hy, hhost⟩ := h.known e he
  rw [hf.1] at hy
  obtain rfl := Option.some.inj (hx.symm.trans hy)
  rw [← hhost]
  cases hs : e.signal with
  | message => simp [hs, Signal.isDisconnection] at hf
  | disconnected reason =>
    by_cases hcase : a = .client ∨ o.filter = some x.host
    · simp [callback?, hearsFarewell, hcase]
    · simp only [callback?, if_neg hcase, hearsFarewell]
      simp only [not_or] at hcase
      simp [hcase]

theorem Logged.farewells (h : l.Logged) (hx : l.connections[c]? = some x) (hsound : x.Sound) :
    l.log.countP (Notice.isFarewellOf c) = if x.phase = .disconnected then 1 else 0 := by
  rw [← Connection.count_disconnections hsound.spoken, ← h.told hx, List.countP_map,
    List.countP_filter]
  refine List.countP_congr fun e _ => ?_
  simp [Notice.isFarewellOf, and_comm]

theorem Logged.no_farewells (h : l.Logged)
    (hsound : ∀ {x : Connection}, l.connections[c]? = some x → x.Sound)
    (hup : ∀ x, l.connections[c]? = some x → x.phase ≠ .disconnected) :
    l.log.countP (Notice.isFarewellOf c) = 0 := by
  cases hc : l.connections[c]? with
  | some x => rw [h.farewells hc (hsound hc), if_neg (hup x hc)]
  | none =>
    refine List.countP_eq_zero.mpr fun e he hf => ?_
    simp only [Notice.isFarewellOf, Bool.and_eq_true, beq_iff_eq] at hf
    obtain ⟨x, hx, -⟩ := h.known e he
    rw [hf.1, hc] at hx
    exact absurd hx nofun

theorem countP_farewells (h : l'.Logged) (hx : l'.connections[c]? = some x) (hsound : x.Sound)
    (hlog : l'.log = l.log ++ es) (hbefore : l.log.countP (Notice.isFarewellOf c) = 0)
    (hend : x.phase = .disconnected) :
    (kept a o l.log.length es).countP (l'.isFarewellOf c) = (hearsFarewell a o x.host).toNat := by
  have hone := h.farewells hx hsound
  rw [if_pos hend, hlog, List.countP_append, hbefore, Nat.zero_add] at hone
  have hrule : ∀ e ∈ es, (e.isFarewellOf c && (callback? a o e.host e.signal).isSome) =
      (e.isFarewellOf c && hearsFarewell a o x.host) := by
    intro e he
    cases hf : e.isFarewellOf c with
    | false => rfl
    | true => rw [h.callback_farewell hx (hlog ▸ List.mem_append_right _ he) hf]
  rw [countP_kept l.log hlog, List.countP_congr fun e he => by rw [hrule e he]]
  cases hearsFarewell a o x.host with
  | true => simpa using hone
  | false => simp

structure Hears (a : Audience) (o : Observer) (l l' : Ledger) (calls : List Bus.Heard) : Prop where
  logged : l'.Logged
  past : l.log <+: l'.log
  heard : calls = kept a o l.log.length (l'.log.drop l.log.length)
  farewell : ∀ {c : Nat} {x : Connection}, l'.connections[c]? = some x →
    x.phase = .disconnected → (∀ y, l.connections[c]? = some y → y.phase ≠ .disconnected) →
    calls.countP (l'.isFarewellOf c) = (hearsFarewell a o x.host).toNat

theorem hears_since_joining (h : l.Logged) (hs : Step behaviour a l l') (hj : Joins l l' i o)
    (hrun : Steps behaviour a l' l'') (hr : l''.bus.Returned behaviour)
    (hsound : ∀ {c : Nat} {x : Connection}, l'.connections[c]? = some x → x.Sound)
    (hsound' : ∀ {c : Nat} {x : Connection}, l''.connections[c]? = some x → x.Sound) :
    Hears a o l' l'' (l''.bus.heard i) := by
  obtain ⟨es, hlog, -⟩ := hrun.onward
  have hlogged := hrun.logged (h.step hs)
  have hcalls := heard_since_joining h hs hj hrun hr
  refine ⟨hlogged, hlog ▸ List.prefix_append _ _, hcalls, ?_⟩
  intro c x hx hend hup
  rw [hcalls, hlog, List.drop_left]
  exact countP_farewells hlogged hx (hsound' hx) hlog ((h.step hs).no_farewells hsound hup) hend

variable {α : Type} {view : α → Ledger} {Reach : α → Prop} {Next : α → α → Prop} {s s₁ s₂ : α}

structure Keeps (behaviour : Behaviour) (a : Audience) (view : α → Ledger) (Reach : α → Prop)
    (Next : α → α → Prop) : Prop where
  reach : ∀ {s s'}, Reach s → Next s s' → Reach s'
  step : ∀ {s s'}, Reach s → Next s s' → Step behaviour a (view s) (view s')
  logged : ∀ {s}, Reach s → (view s).Logged
  sound : ∀ {s}, Reach s → ∀ {c : Nat} {x : Connection}, (view s).connections[c]? = some x → x.Sound

def Joined (view : α → Ledger) (Reach : α → Prop) (Next : α → α → Prop) (i : Nat) (o : Observer)
    (s₁ s : α) : Prop :=
  ∃ s₀, Reach s₀ ∧ Next s₀ s₁ ∧ Joins (view s₀) (view s₁) i o ∧ Relation.ReflTransGen Next s₁ s

namespace Keeps

theorem run (h : Keeps behaviour a view Reach Next) (hs : Reach s₁)
    (hrun : Relation.ReflTransGen Next s₁ s) :
    Reach s ∧ Steps behaviour a (view s₁) (view s) := by
  induction hrun with
  | refl => exact ⟨hs, .refl⟩
  | tail _ hn ih => exact ⟨h.reach ih.1 hn, ih.2.tail (h.step ih.1 hn)⟩

theorem exists_joined (h : Keeps behaviour a view Reach Next) (hs₁ : Reach s₁)
    (hnone : (view s₁).bus.observers = []) (hrun : Relation.ReflTransGen Next s₁ s)
    (ho : (view s).bus.observers[i]? = some o) : ∃ s₂, Joined view Reach Next i o s₂ s := by
  induction hrun with
  | refl => simp [hnone] at ho
  | @tail s s' hrun hn ih =>
    have hs := (h.run hs₁ hrun).1
    by_cases hi : (view s).bus.observers.length ≤ i
    · exact ⟨s', s, hs, hn, ⟨hi, ho⟩, .refl⟩
    · obtain ⟨es, -, hd⟩ := (h.step hs hn).onward
      have hold : (view s).bus.observers[i]? = some (view s).bus.observers[i] :=
        List.getElem?_eq_getElem (Nat.lt_of_not_le hi)
      obtain rfl := Option.some.inj ((hd.observer hold).symm.trans ho)
      obtain ⟨s₂, s₀, hs₀, hn₀, hj, hrun₂⟩ := ih hold
      exact ⟨s₂, s₀, hs₀, hn₀, hj, hrun₂.tail hn⟩

theorem hears (h : Keeps behaviour a view Reach Next) (hj : Joined view Reach Next i o s₁ s)
    (hr : (view s).bus.Returned behaviour) :
    Hears a o (view s₁) (view s) ((view s).bus.heard i) := by
  obtain ⟨s₀, hs₀, hn, hj, hrun⟩ := hj
  have hs₁ := h.reach hs₀ hn
  obtain ⟨hs, hsteps⟩ := h.run hs₁ hrun
  exact hears_since_joining (h.logged hs₀) (h.step hs₀ hn) hj hsteps hr (h.sound hs₁) (h.sound hs)

end Keeps

end Ledger

end Fanout
