import Fanout.Observer.Bus

/-!
Observers as they are written down in a scenario: a tree, in which the first call of a callback may
register further observers. Enrolling a tree gives each callback a number and notes what it does.
-/

namespace Fanout

mutual

/-- What a callback does: the first two things on its first call only, the others on every call. -/
inductive Reaction where
  | mk (subscribes : Option Subscription) (dispatches : Option Event) (measures raises : Bool)

inductive Subscription where
  | mk (label : String) (filter : Option String) (times : Nat)
      (onMessage onDisconnect : Option Reaction)

end

instance : Inhabited Subscription :=
  ⟨.mk "" none 1 none none⟩

structure Part where
  label : String
  first : List Act
  later : List Act
  deriving Repr

abbrev Roster :=
  Array Part

namespace Roster

def behaviour (r : Roster) : Behaviour := fun h n =>
  match r[h]? with
  | none => []
  | some part => if n = 0 then part.first else part.later

def label (r : Roster) (h : Handler) : String :=
  match r[h]? with
  | none => ""
  | some part => part.label

end Roster

def filterOf : Option String → Option String
  | none => none
  | some address => (Observer.forAddress address).filter

mutual

def Reaction.enroll (label : String) (r : Roster) : Reaction → Handler × Roster
  | .mk subscribes dispatches measures raises =>
      let (observers, r) :=
        match subscribes with
        | none => ([], r)
        | some s => s.enroll r
      let later :=
        (if measures then [Act.measure] else []) ++ (if raises then [Act.raise] else [])
      let first := observers.map .subscribe ++ dispatches.toList.map .dispatch ++ later
      (r.size, r.push ⟨label, first, later⟩)

def Subscription.enroll (r : Roster) : Subscription → List Observer × Roster
  | .mk label filter times onMessage onDisconnect =>
      (List.range times).foldr
        (fun _ (observers, r) =>
          let (m, r) :=
            match onMessage with
            | none => (none, r)
            | some reaction =>
                let (h, r) := reaction.enroll label r
                (some h, r)
          let (d, r) :=
            match onDisconnect with
            | none => (none, r)
            | some reaction =>
                let (h, r) := reaction.enroll label r
                (some h, r)
          ({ filter := filterOf filter, onMessage := m, onDisconnect := d } :: observers, r))
        ([], r)

end

end Fanout
