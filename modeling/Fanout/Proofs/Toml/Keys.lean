import Fanout.Toml.Document
import Mathlib.Data.List.Nodup

namespace Fanout.Toml

variable {t t' : Table} {key k : String} {v : Value} {origin origin' : Origin} {path : List String}

namespace Table

def Keyed (t : Table) : Prop :=
  (t.map Prod.fst).Nodup

theorem find?_eq_none_iff : t.find? key = none ↔ key ∉ t.map Prod.fst := by
  induction t with
  | nil => simp [find?]
  | cons e t ih =>
    rw [find?] at ih ⊢
    by_cases hkey : key = e.1
    · simp [hkey]
    · rw [List.lookup_cons, beq_false_of_ne hkey, ih, List.map_cons, List.mem_cons, not_or]
      exact ⟨fun ht => ⟨hkey, ht⟩, And.right⟩

theorem mem_keys_set : k ∈ (t.set key v).map Prod.fst ↔ k = key ∨ k ∈ t.map Prod.fst := by
  rw [← not_iff_not, ← find?_eq_none_iff, find?_set, not_or, ← find?_eq_none_iff]
  by_cases hk : k = key <;> simp [hk]

theorem Keyed.set (h : t.Keyed) : (t.set key v).Keyed := by
  induction t with
  | nil => exact List.nodup_singleton key
  | cons e t ih =>
    obtain ⟨j, w⟩ := e
    obtain ⟨hj, ht⟩ := List.nodup_cons.mp h
    by_cases hkey : j = key
    · rw [Table.set, if_pos hkey]
      exact h
    · rw [Table.set, if_neg hkey, Keyed, List.map_cons]
      refine List.nodup_cons.mpr ⟨?_, ih ht⟩
      rw [mem_keys_set, not_or]
      exact ⟨hkey, hj⟩

theorem Keyed.concat (h : t.Keyed) (hfresh : t.find? key = none) : (t ++ [(key, v)]).Keyed := by
  rw [Keyed, List.map_append, List.map_singleton, List.nodup_append]
  refine ⟨h, List.nodup_singleton key, ?_⟩
  intro j hj i hi hji
  obtain rfl : i = key := List.mem_singleton.mp hi
  exact find?_eq_none_iff.mp hfresh (hji ▸ hj)

end Table

open Table (Keyed)

theorem insert_keyed {isDotted : Bool} (h : t.Keyed)
    (hi : insert isDotted key v origin t = some (origin', t')) : t'.Keyed := by
  unfold insert at hi
  split at hi
  · cases hi
  · split at hi
    · cases hi
    · rename_i hfresh
      obtain rfl := (Prod.mk.inj (Option.some.inj hi)).2
      exact h.concat (by simpa using hfresh)

theorem within_keyed {isDotted : Bool} {f : Origin → Table → Option (Origin × Table)}
    (keeps : ∀ {o o' : Origin} {t t' : Table}, t.Keyed → f o t = some (o', t') → t'.Keyed)
    (h : t.Keyed) (hw : within isDotted f path origin t = some (origin', t')) : t'.Keyed := by
  cases path with
  | nil => exact keeps h hw
  | cons k path =>
    have sets {x : Option (Origin × Table)} {g : Origin → Table → Value}
        (hx : (x.bind fun p => some (origin, t.set k (g p.1 p.2))) = some (origin', t')) :
        t'.Keyed := by
      obtain ⟨p, -, hp⟩ := Option.bind_eq_some_iff.mp hx
      exact (Prod.mk.inj (Option.some.inj hp)).2 ▸ h.set
    unfold within at hw
    split at hw
    · exact sets hw
    · split at hw
      · cases hw
      · exact sets hw
    · exact sets (g := fun o inner => .tables (.table o inner :: _)) hw
    · cases hw

theorem openTable_keyed (h : t.Keyed) (ho : openTable key origin t = some (origin', t')) :
    t'.Keyed := by
  unfold openTable at ho
  split at ho
  · exact (Prod.mk.inj (Option.some.inj ho)).2 ▸ h.set
  · exact (Prod.mk.inj (Option.some.inj ho)).2 ▸ h.set
  · cases ho

theorem openElement_keyed (h : t.Keyed) (ho : openElement key origin t = some (origin', t')) :
    t'.Keyed := by
  unfold openElement at ho
  split at ho
  · exact (Prod.mk.inj (Option.some.inj ho)).2 ▸ h.set
  · exact (Prod.mk.inj (Option.some.inj ho)).2 ▸ h.set
  · cases ho

theorem insertAt_keyed {path : Path} (h : t.Keyed)
    (hi : insertAt path v origin t = some (origin', t')) : t'.Keyed :=
  within_keyed insert_keyed h hi

namespace Draft

variable {d d' : Draft} {line : Line} {lines : List Line}

theorem change_keyed {f : Origin → Table → Option (Origin × Table)}
    (keeps : ∀ {o o' : Origin} {t t' : Table}, t.Keyed → f o t = some (o', t') → t'.Keyed)
    (h : d.root.Keyed) (hd : d.change path f = some d') : d'.root.Keyed := by
  obtain ⟨p, hp, hd⟩ := Option.bind_eq_some_iff.mp hd
  obtain rfl := Option.some.inj hd
  exact within_keyed keeps h hp

theorem add_keyed (h : d.root.Keyed) (ha : d.add line = some d') : d'.root.Keyed := by
  cases line with
  | header path =>
    obtain ⟨d₁, hd₁, ha⟩ := Option.bind_eq_some_iff.mp ha
    obtain rfl := Option.some.inj ha
    have hroot : d₁.root.Keyed := change_keyed openTable_keyed h hd₁
    exact hroot
  | element path =>
    obtain ⟨d₁, hd₁, ha⟩ := Option.bind_eq_some_iff.mp ha
    obtain rfl := Option.some.inj ha
    have hroot : d₁.root.Keyed := change_keyed openElement_keyed h hd₁
    exact hroot
  | pair path v => exact change_keyed insertAt_keyed h ha

theorem add_all_keyed (h : d.root.Keyed) (ha : lines.foldlM Draft.add d = some d') :
    d'.root.Keyed := by
  induction lines generalizing d with
  | nil => exact Option.some.inj ha ▸ h
  | cons line lines ih =>
    obtain ⟨d₁, hd₁, ha⟩ := Option.bind_eq_some_iff.mp ha
    exact ih (add_keyed h hd₁) ha

end Draft

theorem keyed_of_ofText? {text : String} (h : Table.ofText? text = some t) : t.Keyed := by
  obtain ⟨lines, -, h⟩ := Option.bind_eq_some_iff.mp h
  obtain ⟨d, hd, h⟩ := Option.bind_eq_some_iff.mp h
  obtain rfl := Option.some.inj h
  exact Draft.add_all_keyed (d := {}) List.nodup_nil hd

end Fanout.Toml
