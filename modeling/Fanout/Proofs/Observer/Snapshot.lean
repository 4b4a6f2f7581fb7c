import Fanout.Proofs.Observer.Numbering

namespace Fanout.Bus

variable {behaviour : Behaviour} {stage : Stage} {b b' : Bus} {ds ds' during later : List Deed}
  {out : Outcome} {depth lo hi n i : Nat} {own : Option Nat} {e : Event} {h : Handler}
  {os : List Observer} {o : Observer} {hs : List (Nat × Handler)} {us : List Use}

theorem Does.raising (hd : Does behaviour stage b ds b' out) : Raising false ds out.isRaised := by
  induction hd with
  | dispatch h ih => exact .cons rfl (ih.append (.cons rfl .nil))
  | call hd hrest ih ih' => exact .cons rfl (ih.append (.cons rfl ih'))
  | callRaised hd ih => exact .cons rfl (ih.append (.cons rfl .nil))
  | subscribe h ih | measure h ih => exact .cons rfl ih
  | nest hd hrest ih ih' => exact ih.append ih'
  | nestRaised hd ih => exact ih
  | raise => exact .cons rfl .nil
  | callNobody | done => exact .nil

def Stage.number? : Stage → Option Nat
  | .calls n _ _ => some n
  | _ => none

def Stage.Served (ds : List Deed) (out : Outcome) : Stage → Prop
  | .calls n e hs => ∃ called, Serves hs called (endsOf n ds) out ∧
      callsOf n ds = called.map (fun p => (p.1, p.2, e))
  | _ => True

theorem served_nil (n : Nat) (e : Event) : (Stage.calls n e []).Served [] .returned :=
  ⟨[], .all, rfl⟩

theorem others_within (hds : ∀ d ∈ ds, d.Within none lo hi) (hn : n < lo) :
    ∀ d ∈ ds, d.number? ≠ some n := by
  intro d hm heq
  rcases hds d hm n heq with hr | ⟨hnone, -⟩
  · omega
  · exact absurd hnone nofun

theorem served_call (hds : ∀ d ∈ ds, d.number? ≠ some n)
    (hserved : (Stage.calls n e hs).Served ds' out) :
    (Stage.calls n e ((i, h) :: hs)).Served
      (.called n i h e :: (ds ++ .left n i .returned :: ds')) out := by
  obtain ⟨called, hserves, hcalls⟩ := hserved
  obtain ⟨hcalls', hends⟩ := calls_of_call hds
  refine ⟨(i, h) :: called, ?_, ?_⟩
  · rw [hends]
    exact hserves.cons (i, h)
  · rw [hcalls', hcalls]
    rfl

theorem served_callRaised (hs : List (Nat × Handler)) (hds : ∀ d ∈ ds, d.number? ≠ some n) :
    (Stage.calls n e ((i, h) :: hs)).Served
      (.called n i h e :: (ds ++ [.left n i .raised])) .raised := by
  obtain ⟨hcalls, hends⟩ := calls_of_call hds
  refine ⟨[(i, h)], ?_, hcalls⟩
  rw [hends]
  have hcut : (i, h) :: hs = [] ++ (i, h) :: hs := rfl
  exact .cut hcut

theorem Does.tidy (hd : Does behaviour stage b ds b' out)
    (hbegun : ∀ n, stage.number? = some n → n < b.begun) :
    Tidy stage.number? b.begun b'.begun b.observers ds ∧ stage.Served ds out := by
  induction hd with
  | @dispatch e b b' ds out h ih =>
    obtain ⟨htidy, called, hserves, hcalls⟩ :=
      ih fun n hn => Option.some.inj hn ▸ Nat.lt_succ_self b.begun
    exact ⟨htidy.dispatch ⟨_, called, selects_handlers b e, hserves, hcalls, h.raising⟩, trivial⟩
  | callNobody => exact ⟨.nil hbegun, served_nil _ _⟩
  | call hd hrest ih ih' =>
    obtain ⟨htidy, -⟩ := ih nofun
    obtain ⟨htidy', hserved⟩ := ih' fun n hn => Nat.lt_of_lt_of_le (hbegun n hn) htidy.le
    rw [hd.observers] at htidy'
    exact ⟨htidy.call htidy' (hbegun _ rfl),
      served_call (others_within htidy.within (hbegun _ rfl)) hserved⟩
  | callRaised hd ih =>
    obtain ⟨htidy, -⟩ := ih nofun
    have hlt (m : Nat) (hm : _ = some m) := Nat.lt_of_lt_of_le (hbegun m hm) htidy.le
    exact ⟨htidy.call (.nil hlt) (hbegun _ rfl),
      served_callRaised _ (others_within htidy.within (hbegun _ rfl))⟩
  | done => exact ⟨.nil hbegun, trivial⟩
  | raise => exact ⟨(Tidy.nil hbegun).cons nofun nofun, trivial⟩
  | subscribe h ih => exact ⟨(ih nofun).1.cons nofun nofun, trivial⟩
  | measure h ih => exact ⟨(ih nofun).1.cons_plain rfl nofun nofun, trivial⟩
  | nest hd hrest ih ih' =>
    have htidy' := (ih' nofun).1
    rw [hd.observers] at htidy'
    exact ⟨(ih nofun).1.append htidy', trivial⟩
  | nestRaised hd ih => exact ih nofun

theorem Accounts.tidy (ha : Accounts behaviour depth us b ds b') :
    Tidy none b.begun b'.begun b.observers ds := by
  induction ha with
  | nothing => exact .nil nofun
  | subscribe h ih => exact ih.cons nofun nofun
  | dispatch hresult hd hrest ih =>
    rw [hd.observers] at ih
    exact (hd.tidy nofun).1.append ih

theorem calls_of_whole {before : List Deed} (hout : ∀ d ∈ before ++ later, d.number? ≠ some n) :
    callsOf n (before ++ .began n e :: (during ++ .ended n out :: later)) = callsOf n during ∧
      endsOf n (before ++ .began n e :: (during ++ .ended n out :: later)) = endsOf n during := by
  obtain ⟨hbefore, hlater⟩ := List.forall_mem_append.mp hout
  rw [callsOf_append, callsOf_cons, callsOf_append, callsOf_cons, callsOf_eq_nil hbefore,
    callsOf_eq_nil hlater, endsOf_append, endsOf_cons, endsOf_append, endsOf_cons,
    endsOf_eq_nil hbefore, endsOf_eq_nil hlater]
  exact ⟨List.append_nil _, List.append_nil _⟩

theorem Tidy.attends {before rest : List Deed}
    (ht : Tidy own lo hi os (before ++ .began n e :: rest)) :
    ∃ during out later, rest = during ++ .ended n out :: later ∧
      (∀ d ∈ before ++ later, d.number? ≠ some n) ∧
      Attends (os ++ subscriptions before) n e during out := by
  obtain ⟨during, out, later, heq, hlater, hattends⟩ := ht.conducted.conducts
  have hfresh := (List.pairwise_append.mp ht.fresh).2.2
  exact ⟨during, out, later, heq, List.forall_mem_append.mpr
    ⟨fun d hm => hfresh d hm _ List.mem_cons_self n e rfl, hlater⟩, hattends⟩

/-- What an observer can count on who is the next to register when this much has happened: no
dispatch that has begun calls him, and every later one that is for him does so once, unless a
callback of an observer before him raises. -/
structure Enrolls (i : Nat) (o : Observer) (before after : List Deed) : Prop where
  unheard : ∀ n e, .began n e ∈ before → ∀ h e',
    (i, h, e') ∉ callsOf n (before ++ .subscribed o :: after)
  heard : ∀ n e h, .began n e ∈ after → o.Takes h e →
    (callsOf n (before ++ .subscribed o :: after)).count (i, h, e) = 1 ∨
      .ended n .raised ∈ after ∧
        ∃ j < i, (j, .raised) ∈ endsOf n (before ++ .subscribed o :: after)

theorem Tidy.enrolls {before after : List Deed}
    (ht : Tidy own lo hi os (before ++ .subscribed o :: after)) :
    Enrolls (os.length + (subscriptions before).length) o before after where
  unheard n e hm h e' hcalls := by
    obtain ⟨early, rest, rfl⟩ := List.append_of_mem hm
    rw [List.append_assoc, List.cons_append] at ht hcalls
    obtain ⟨during, out, later, heq, hout, hattends⟩ := ht.attends
    rw [heq, (calls_of_whole hout).1] at hcalls
    have hlt := hattends.lt hcalls
    rw [List.length_append, subscriptions_append, List.length_append] at hlt
    omega
  heard n e h hm htakes := by
    obtain ⟨early, rest, rfl⟩ := List.append_of_mem hm
    rw [← List.cons_append, ← List.append_assoc] at ht ⊢
    obtain ⟨during, out, later, rfl, hout, hattends⟩ := ht.attends
    rw [(calls_of_whole hout).1, (calls_of_whole hout).2]
    refine (hattends.called_once ?_ htakes).imp_right ?_
    · rw [subscriptions_append, subscriptions_cons, ← List.append_assoc, ← List.length_append]
      simp [Deed.subscription?]
    · rintro ⟨rfl, hraised⟩
      exact ⟨by simp, hraised⟩

theorem dispatches_serve_their_snapshot {b₀ b : Bus}
    (run : b₀.serve behaviour depth us = some b) :
    (∃ ds, Accounts behaviour depth us b₀ ds b) ∧
      ∀ ds, Accounts behaviour depth us b₀ ds b →
        b.observers = b₀.observers ++ subscriptions ds ∧ b.log = b₀.log ++ records ds ∧
        (∀ before n e rest, ds = before ++ .began n e :: rest →
          ∃ during out later, rest = during ++ .ended n out :: later ∧
            (∀ d ∈ before ++ later, d.number? ≠ some n) ∧
            Attends (b₀.observers ++ subscriptions before) n e during out) ∧
        ∀ before o after, ds = before ++ .subscribed o :: after →
          Enrolls (b₀.observers.length + (subscriptions before).length) o before after := by
  refine ⟨accounts_of_serve run, fun ds hds => ⟨hds.observers, hds.log, ?_, ?_⟩⟩
  · rintro before n e rest rfl
    exact hds.tidy.attends
  · rintro before o after rfl
    exact hds.tidy.enrolls

def host : Observer where
  onMessage := some 0

def skeptic : Observer where
  onMessage := some 1

def latecomer : Observer where
  onMessage := some 2

/-- The first call of the host lets a latecomer in and begins a dispatch, in which the skeptic
panics. -/
def debate : Behaviour := fun h n =>
  match h, n with
  | 0, 0 => [.subscribe latecomer, .dispatch (.message "b" [7])]
  | 1, 0 => [.raise]
  | _, _ => []

def twoMessages : List Use :=
  [.subscribe host, .subscribe skeptic, .dispatch (.message "a" [1]), .dispatch (.message "a" [2])]

theorem latecomer_hears_the_second_message :
    ∃ b ds, ({} : Bus).serve debate 2 twoMessages = some b ∧
      Accounts debate 2 twoMessages {} ds b ∧ subscriptions ds = [host, skeptic, latecomer] ∧
      records ds = [.call 0 0 0 (.message "a" [1]), .call 1 0 0 (.message "b" [7]),
        .call 1 1 1 (.message "b" [7]), .call 2 0 0 (.message "a" [2]),
        .call 2 1 1 (.message "a" [2]), .call 2 2 2 (.message "a" [2])] ∧
      ∀ before after, ds = before ++ .subscribed latecomer :: after →
        Enrolls (subscriptions before).length latecomer before after := by
  let b : Bus :=
    { observers := [host, skeptic, latecomer]
      log := [.call 0 0 0 (.message "a" [1]), .call 1 0 0 (.message "b" [7]),
        .call 1 1 1 (.message "b" [7]), .call 2 0 0 (.message "a" [2]),
        .call 2 1 1 (.message "a" [2]), .call 2 2 2 (.message "a" [2])]
      begun := 3 }
  have run : ({} : Bus).serve debate 2 twoMessages = some b := rfl
  obtain ⟨⟨ds, hds⟩, hall⟩ := dispatches_serve_their_snapshot run
  obtain ⟨hobservers, hlog, -, henrolls⟩ := hall ds hds
  refine ⟨b, ds, run, hds, hobservers.symm, hlog.symm, fun before after heq => ?_⟩
  exact Nat.zero_add (subscriptions before).length ▸ henrolls before latecomer after heq

end Fanout.Bus
