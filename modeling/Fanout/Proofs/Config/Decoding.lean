import Fanout.Proofs.Config.Overlay
import Fanout.Proofs.Toml.Keys

namespace Fanout

theorem Entry.fits_of_ofValue? {k : Kind} {v : Toml.Value} {e : Entry} (h : ofValue? k v = some e) :
    e.Fits k := by
  unfold ofValue? at h
  split at h
  · rename_i bound n
    split at h
    · rename_i hn
      obtain rfl := Option.some.inj h
      have hlt : n.toNat < bound := by omega
      exact hlt
    · cases h
  · obtain rfl := Option.some.inj h
    trivial
  · obtain ⟨ip, -, rfl⟩ := Option.map_eq_some_iff.mp h
    trivial
  · cases h

namespace Schema

variable {C F : Type} {s : Schema C F} {default c : C} {f : F} {t : Toml.Table} {key : String}
  {v : Toml.Value}

def stated? (s : Schema C F) (t : Toml.Table) (f : F) : Option Entry :=
  t.find? (s.key f) >>= Entry.ofValue? (s.kind f)

/-- Every setting that the document has is of the right type and in its range. -/
def Decodable (s : Schema C F) (t : Toml.Table) : Prop :=
  ∀ f v, t.find? (s.key f) = some v → (Entry.ofValue? (s.kind f) v).isSome = true

/-- The configuration has the settings of the document, and those of the default where it has none.
-/
def Fills (s : Schema C F) (default : C) (t : Toml.Table) (c : C) : Prop :=
  ∀ f, s.get c f = (s.stated? t f).getD (s.get default f)

theorem field?_eq_some (h : s.field? key = some f) : s.key f = key := by
  simpa using List.find?_some (p := (s.key · == key)) h

namespace Lawful

variable (h : s.Lawful)
include h

theorem field?_eq_none (hk : s.field? key = none) (f : F) : s.key f ≠ key := by
  have hf := List.find?_eq_none.mp hk f (h.all f)
  simpa using hf

theorem ofTable_cons (ht : Toml.Table.Keyed ((key, v) :: t)) (fits : s.Decodable ((key, v) :: t))
    (default : C) :
    ∃ d, s.overlay default key v = .ok d ∧ s.Decodable t ∧
      ∀ c, s.Fills d t c → s.Fills default ((key, v) :: t) c := by
  have hfresh : t.find? key = none := Toml.Table.find?_eq_none_iff.mpr (List.nodup_cons.mp ht).1
  have hskip {f : F} (hne : s.key f ≠ key) :
      Toml.Table.find? ((key, v) :: t) (s.key f) = t.find? (s.key f) := by
    rw [Toml.Table.find?, List.lookup_cons, beq_false_of_ne hne]
    rfl
  have hrest : s.Decodable t := by
    intro f w hw
    by_cases hne : s.key f = key
    · rw [hne, hfresh] at hw
      cases hw
    · exact fits f w ((hskip hne).trans hw)
  cases hg : s.field? key with
  | none =>
    refine ⟨default, by simp [overlay, hg], hrest, fun c hc f => ?_⟩
    rw [hc f, stated?, stated?, hskip (h.field?_eq_none hg f)]
  | some g =>
    obtain rfl := field?_eq_some hg
    have hv : Toml.Table.find? ((s.key g, v) :: t) (s.key g) = some v := List.lookup_cons_self
    obtain ⟨e, he⟩ := Option.isSome_iff_exists.mp (fits g v hv)
    refine ⟨s.put default g e, by simp [overlay, hg, he], hrest, fun c hc f => ?_⟩
    by_cases hfg : f = g
    · subst hfg
      simp [hc f, stated?, hfresh, hv, he, h.get_put _ _ _ (Entry.fits_of_ofValue? he)]
    · have hne : s.key f ≠ s.key g := fun heq => hfg (h.key_inj f g heq)
      rw [hc f, stated?, stated?, hskip hne, h.get_put_ne _ _ _ _ hfg]

theorem exists_ofTable (default : C) (ht : t.Keyed) (fits : s.Decodable t) :
    ∃ c, s.ofTable default t = .ok c ∧ s.Fills default t c := by
  induction t generalizing default with
  | nil => exact ⟨default, rfl, fun _ => rfl⟩
  | cons e t ih =>
    obtain ⟨key, v⟩ := e
    obtain ⟨d, hd, hrest, hfills⟩ := h.ofTable_cons ht fits default
    obtain ⟨c, hc, hcd⟩ := ih d (List.nodup_cons.mp ht).2 hrest
    refine ⟨c, ?_, hfills c hcd⟩
    simp only [ofTable, List.foldlM_cons, hd] at hc ⊢
    exact hc

theorem eq_of_fills {d : C} (hc : s.Fills default t c) (hd : s.Fills default t d) : c = d :=
  h.ext c d fun f => (hc f).trans (hd f).symm

variable [DecidableEq F] (c : C) (fs : List F)

theorem find?_settings (f : F) :
    Toml.Table.find? ((fs.map (s.setting c)).map Toml.Setting.entry) (s.key f) =
      if f ∈ fs then some (s.get c f).value else none := by
  induction fs with
  | nil => rfl
  | cons g fs ih =>
    rw [Toml.Table.find?, List.map_cons, List.map_cons, Toml.Setting.entry, List.lookup_cons,
      ← Toml.Table.find?, ih]
    by_cases hfg : f = g
    · subst hfg
      simp [setting]
    · have hne : (s.key f == (s.setting c g).key) = false :=
        beq_false_of_ne fun heq => hfg (h.key_inj f g heq)
      simp [hne, hfg]

theorem stated?_settings (f : F) :
    s.stated? ((fs.map (s.setting c)).map Toml.Setting.entry) f =
      if f ∈ fs then some (s.get c f) else none := by
  rw [stated?, h.find?_settings]
  split
  · exact Entry.ofValue?_value (h.fits c f)
  · rfl

theorem decodable_settings :
    s.Decodable ((fs.map (s.setting c)).map Toml.Setting.entry) := by
  intro f v hv
  rw [h.find?_settings] at hv
  split at hv
  · obtain rfl := Option.some.inj hv
    rw [Entry.ofValue?_value (h.fits c f)]
    rfl
  · cases hv

theorem fills_settings (default : C) :
    s.Fills default ((fs.map (s.setting c)).map Toml.Setting.entry) (s.merge c fs default) := by
  intro f
  rw [h.get_merge, h.stated?_settings]
  split <;> rfl

end Lawful

end Schema

end Fanout
