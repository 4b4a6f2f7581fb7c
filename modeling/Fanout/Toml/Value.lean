/-!
The values of a TOML document. Of a float or a date only the written form is kept, since no setting
of this program is one; a number is an integer only in the range of sixty-four signed bits.
-/

namespace Fanout.Toml

/--
How a table came to be: by its own header, as a parent in the header of another one, by a dotted
key, or written inline. Later lines may extend a table only as its origin allows.
-/
inductive Origin where
  | header
  | parent
  | dotted
  | inline
  deriving DecidableEq, Repr

inductive Value where
  | string (text : String)
  | integer (n : Int)
  | float (written : String)
  | boolean (b : Bool)
  | moment (written : String)
  | array (items : List Value)
  | table (origin : Origin) (entries : List (String × Value))
  /-- An array of tables made by headers, the latest table first. -/
  | tables (latestFirst : List Value)
  deriving Repr

abbrev Table :=
  List (String × Value)

namespace Table

def find? (t : Table) (key : String) : Option Value :=
  t.lookup key

def set (t : Table) (key : String) (v : Value) : Table :=
  match t with
  | [] => [(key, v)]
  | (k, w) :: rest => if k = key then (k, v) :: rest else (k, w) :: set rest key v

theorem find?_set (t : Table) (key : String) (v : Value) (k : String) :
    (t.set key v).find? k = if k = key then some v else t.find? k := by
  induction t with
  | nil =>
      by_cases h : k = key
      · simp [set, find?, h]
      · simp [set, find?, h]
  | cons e t ih =>
      obtain ⟨j, w⟩ := e
      by_cases hj : j = key
      · subst hj
        by_cases h : k = j
        · simp [set, find?, h]
        · simp [set, find?, h, List.lookup_cons, beq_false_of_ne h]
      · by_cases h : k = j
        · subst h
          simp [set, find?, hj]
        · simp only [set, hj, if_false, find?, List.lookup_cons, beq_false_of_ne h]
          exact ih

end Table

end Fanout.Toml
