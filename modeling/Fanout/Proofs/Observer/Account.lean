import Fanout.Observer.Bus

namespace Fanout

def Outcome.isRaised : Outcome → Bool
  | .raised => true
  | .returned => false

namespace Bus

inductive Deed where
  | subscribed (o : Observer)
  | measured (n : Nat)
  | raised
  | began (number : Nat) (e : Event)
  | called (number observer : Nat) (h : Handler) (e : Event)
  | left (number observer : Nat) (out : Outcome)
  | ended (number : Nat) (out : Outcome)
  deriving DecidableEq, Repr

namespace Deed

def subscription? : Deed → Option Observer
  | .subscribed o => some o
  | _ => none

def record? : Deed → Option Record
  | .measured n => some (.size n)
  | .called number observer h e => some (.call number observer h e)
  | _ => none

def number? : Deed → Option Nat
  | .began n _ | .called n _ _ _ | .left n _ _ | .ended n _ => some n
  | _ => none

def unwinds : Deed → Bool
  | .left _ _ out | .ended _ out => out.isRaised
  | _ => false

def raises : Deed → Bool
  | .raised => true
  | d => d.unwinds

end Deed

theorem filterMap_cons_toList {α β : Type} (f : α → Option β) (x : α) (xs : List α) :
    (x :: xs).filterMap f = (f x).toList ++ xs.filterMap f := by
  cases h : f x <;> simp [h]

def subscriptions (deeds : List Deed) : List Observer :=
  deeds.filterMap Deed.subscription?

theorem subscriptions_append (xs ys : List Deed) :
    subscriptions (xs ++ ys) = subscriptions xs ++ subscriptions ys :=
  List.filterMap_append

theorem subscriptions_cons (d : Deed) (ds : List Deed) :
    subscriptions (d :: ds) = d.subscription?.toList ++ subscriptions ds :=
  filterMap_cons_toList _ d ds

def records (deeds : List Deed) : List Record :=
  deeds.filterMap Deed.record?

theorem records_append (xs ys : List Deed) : records (xs ++ ys) = records xs ++ records ys :=
  List.filterMap_append

theorem records_cons (d : Deed) (ds : List Deed) :
    records (d :: ds) = d.record?.toList ++ records ds :=
  filterMap_cons_toList _ d ds

inductive Stage where
  | dispatch (e : Event)
  | calls (number : Nat) (e : Event) (hs : List (Nat × Handler))
  | acts (as : List Act)

/-- A stage that comes to its end, with all that has happened in it and in what is nested in it. -/
inductive Does (behaviour : Behaviour) : Stage → Bus → List Deed → Bus → Outcome → Prop
  | dispatch {e : Event} {b b' : Bus} {ds : List Deed} {out : Outcome}
      (h : Does behaviour (.calls b.begun e (b.handlers e)) { b with begun := b.begun + 1 } ds b'
        out) :
      Does behaviour (.dispatch e) b (.began b.begun e :: (ds ++ [.ended b.begun out])) b' out
  | callNobody {n : Nat} {e : Event} {b : Bus} : Does behaviour (.calls n e []) b [] b .returned
  | call {n i : Nat} {e : Event} {h : Handler} {hs : List (Nat × Handler)} {b b₁ b' : Bus}
      {ds ds' : List Deed} {out : Outcome}
      (hd : Does behaviour (.acts (behaviour h (b.calls h))) (b.note (.call n i h e)) ds b₁
        .returned)
      (hrest : Does behaviour (.calls n e hs) b₁ ds' b' out) :
      Does behaviour (.calls n e ((i, h) :: hs)) b
        (.called n i h e :: (ds ++ .left n i .returned :: ds')) b' out
  | callRaised {n i : Nat} {e : Event} {h : Handler} {hs : List (Nat × Handler)} {b b' : Bus}
      {ds : List Deed}
      (hd : Does behaviour (.acts (behaviour h (b.calls h))) (b.note (.call n i h e)) ds b'
        .raised) :
      Does behaviour (.calls n e ((i, h) :: hs)) b
        (.called n i h e :: (ds ++ [.left n i .raised])) b' .raised
  | done {b : Bus} : Does behaviour (.acts []) b [] b .returned
  | subscribe {o : Observer} {as : List Act} {b b' : Bus} {ds : List Deed} {out : Outcome}
      (h : Does behaviour (.acts as) (b.subscribe o) ds b' out) :
      Does behaviour (.acts (.subscribe o :: as)) b (.subscribed o :: ds) b' out
  | measure {as : List Act} {b b' : Bus} {ds : List Deed} {out : Outcome}
      (h : Does behaviour (.acts as) (b.note (.size b.observers.length)) ds b' out) :
      Does behaviour (.acts (.measure :: as)) b (.measured b.observers.length :: ds) b' out
  | raise {as : List Act} {b : Bus} : Does behaviour (.acts (.raise :: as)) b [.raised] b .raised
  | nest {e : Event} {as : List Act} {b b₁ b' : Bus} {ds ds' : List Deed} {out : Outcome}
      (hd : Does behaviour (.dispatch e) b ds b₁ .returned)
      (hrest : Does behaviour (.acts as) b₁ ds' b' out) :
      Does behaviour (.acts (.dispatch e :: as)) b (ds ++ ds') b' out
  | nestRaised {e : Event} {as : List Act} {b b' : Bus} {ds : List Deed}
      (hd : Does behaviour (.dispatch e) b ds b' .raised) :
      Does behaviour (.acts (.dispatch e :: as)) b ds b' .raised

variable {behaviour : Behaviour} {nested : Event → Bus → Option (Bus × Outcome)}
  {b b' : Bus} {e : Event} {out : Outcome} {depth : Nat}

def Accounted (behaviour : Behaviour) (nested : Event → Bus → Option (Bus × Outcome)) : Prop :=
  ∀ {e : Event} {b b' : Bus} {out : Outcome}, nested e b = some (b', out) →
    ∃ ds, Does behaviour (.dispatch e) b ds b' out

theorem does_of_perform (hn : Accounted behaviour nested) {as : List Act}
    (h : perform nested as b = some (b', out)) : ∃ ds, Does behaviour (.acts as) b ds b' out := by
  induction as generalizing b with
  | nil =>
    obtain ⟨rfl, rfl⟩ := Prod.mk.inj (Option.some.inj h)
    exact ⟨_, .done⟩
  | cons act as ih =>
    cases act with
    | subscribe o =>
      obtain ⟨ds, hd⟩ := ih h
      exact ⟨_, .subscribe hd⟩
    | measure =>
      obtain ⟨ds, hd⟩ := ih h
      exact ⟨_, .measure hd⟩
    | raise =>
      obtain ⟨rfl, rfl⟩ := Prod.mk.inj (Option.some.inj h)
      exact ⟨_, .raise⟩
    | dispatch e =>
      simp only [perform] at h
      split at h
      · rename_i b₁ hnested
        obtain ⟨ds, hd⟩ := hn hnested
        obtain ⟨ds', hd'⟩ := ih h
        exact ⟨_, .nest hd hd'⟩
      · rename_i hnot
        obtain ⟨ds, hd⟩ := hn h
        cases out with
        | returned => exact absurd h (hnot b')
        | raised => exact ⟨_, .nestRaised hd⟩

theorem does_of_callAll (hn : Accounted behaviour nested) {n : Nat} {hs : List (Nat × Handler)}
    (h : callAll behaviour nested n e hs b = some (b', out)) :
    ∃ ds, Does behaviour (.calls n e hs) b ds b' out := by
  induction hs generalizing b with
  | nil =>
    obtain ⟨rfl, rfl⟩ := Prod.mk.inj (Option.some.inj h)
    exact ⟨_, .callNobody⟩
  | cons p hs ih =>
    obtain ⟨i, handler⟩ := p
    simp only [callAll] at h
    split at h
    · rename_i b₁ hperformed
      obtain ⟨ds, hd⟩ := does_of_perform hn hperformed
      obtain ⟨ds', hd'⟩ := ih h
      exact ⟨_, .call hd hd'⟩
    · rename_i hnot
      obtain ⟨ds, hd⟩ := does_of_perform hn h
      cases out with
      | returned => exact absurd h (hnot b')
      | raised => exact ⟨_, .callRaised hd⟩

theorem accounted_dispatchWithin (behaviour : Behaviour) (depth : Nat) :
    Accounted behaviour (dispatchWithin behaviour depth) := by
  induction depth with
  | zero => exact fun h => absurd h nofun
  | succ depth ih =>
    intro e b b' out h
    obtain ⟨ds, hd⟩ := does_of_callAll ih h
    exact ⟨_, .dispatch hd⟩

inductive Use where
  | subscribe (o : Observer)
  | dispatch (e : Event)

/-- A bus whose owner does one thing after another with it; he goes on after a dispatch that raised.
-/
def serve (b : Bus) (behaviour : Behaviour) (depth : Nat) : List Use → Option Bus
  | [] => some b
  | .subscribe o :: us => (b.subscribe o).serve behaviour depth us
  | .dispatch e :: us =>
    match b.dispatch behaviour depth e with
    | some (b', _) => b'.serve behaviour depth us
    | none => none

inductive Accounts (behaviour : Behaviour) (depth : Nat) :
    List Use → Bus → List Deed → Bus → Prop
  | nothing {b : Bus} : Accounts behaviour depth [] b [] b
  | subscribe {o : Observer} {us : List Use} {b b' : Bus} {ds : List Deed}
      (h : Accounts behaviour depth us (b.subscribe o) ds b') :
      Accounts behaviour depth (.subscribe o :: us) b (.subscribed o :: ds) b'
  | dispatch {e : Event} {us : List Use} {b b₁ b' : Bus} {ds ds' : List Deed} {out : Outcome}
      (hresult : b.dispatch behaviour depth e = some (b₁, out))
      (hd : Does behaviour (.dispatch e) b ds b₁ out)
      (hrest : Accounts behaviour depth us b₁ ds' b') :
      Accounts behaviour depth (.dispatch e :: us) b (ds ++ ds') b'

theorem accounts_of_serve {us : List Use} (h : b.serve behaviour depth us = some b') :
    ∃ ds, Accounts behaviour depth us b ds b' := by
  induction us generalizing b with
  | nil =>
    obtain rfl := Option.some.inj h
    exact ⟨_, .nothing⟩
  | cons u us ih =>
    cases u with
    | subscribe o =>
      obtain ⟨ds, hd⟩ := ih h
      exact ⟨_, .subscribe hd⟩
    | dispatch e =>
      simp only [serve] at h
      split at h
      · rename_i b₁ out hdispatch
        obtain ⟨ds, hd⟩ := accounted_dispatchWithin behaviour depth hdispatch
        obtain ⟨ds', hd'⟩ := ih h
        exact ⟨_, .dispatch hdispatch hd hd'⟩
      · exact absurd h nofun

variable {stage : Stage} {ds : List Deed} {us : List Use}

theorem Does.observers (h : Does behaviour stage b ds b' out) :
    b'.observers = b.observers ++ subscriptions ds := by
  induction h with
  | dispatch h ih =>
    rw [ih, subscriptions_cons, subscriptions_append]
    exact congrArg _ (List.append_nil _).symm
  | call hd hrest ih ih' =>
    rw [ih', ih, subscriptions_cons, subscriptions_append, subscriptions_cons, List.append_assoc]
    rfl
  | callRaised hd ih =>
    rw [ih, subscriptions_cons, subscriptions_append]
    exact congrArg _ (List.append_nil _).symm
  | subscribe h ih =>
    rw [ih, subscriptions_cons]
    exact List.append_assoc _ _ _
  | measure h ih => exact ih
  | nest hd hrest ih ih' => rw [ih', ih, subscriptions_append, List.append_assoc]
  | nestRaised hd ih => exact ih
  | callNobody | done | raise => exact (List.append_nil _).symm

theorem Does.log (h : Does behaviour stage b ds b' out) : b'.log = b.log ++ records ds := by
  induction h with
  | dispatch h ih =>
    rw [ih, records_cons, records_append]
    exact congrArg _ (List.append_nil _).symm
  | call hd hrest ih ih' =>
    rw [ih', ih, records_cons, records_append, records_cons, List.append_assoc]
    exact List.append_assoc _ _ _
  | callRaised hd ih =>
    rw [ih, records_cons, records_append, records_cons, ← List.append_assoc, ← List.append_assoc]
    exact (List.append_nil _).symm
  | subscribe h ih => exact ih
  | measure h ih =>
    rw [ih, records_cons]
    exact List.append_assoc _ _ _
  | nest hd hrest ih ih' => rw [ih', ih, records_append, List.append_assoc]
  | nestRaised hd ih => exact ih
  | callNobody | done | raise => exact (List.append_nil _).symm

theorem Accounts.observers (h : Accounts behaviour depth us b ds b') :
    b'.observers = b.observers ++ subscriptions ds := by
  induction h with
  | nothing => exact (List.append_nil _).symm
  | subscribe h ih =>
    rw [ih, subscriptions_cons]
    exact List.append_assoc _ _ _
  | dispatch hresult hd hrest ih => rw [ih, hd.observers, subscriptions_append, List.append_assoc]

theorem Accounts.log (h : Accounts behaviour depth us b ds b') :
    b'.log = b.log ++ records ds := by
  induction h with
  | nothing => exact (List.append_nil _).symm
  | subscribe h ih => exact ih
  | dispatch hresult hd hrest ih => rw [ih, hd.log, records_append, List.append_assoc]

end Bus

end Fanout
