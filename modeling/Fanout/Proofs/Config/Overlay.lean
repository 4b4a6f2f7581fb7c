import Fanout.Proofs.Config.Entry
import Mathlib.Data.List.Nodup

namespace Fanout.Schema

variable {C F : Type} {s : Schema C F} {c : C} {f : F} {fs : List F} {l : List Char}
  {text : String}

/-- The settings are independent of one another, make up the configuration, and have keys of their
own that need no quotes. -/
structure Lawful (s : Schema C F) : Prop where
  all : ∀ f, f ∈ s.fields
  nodup : s.fields.Nodup
  bare : ∀ f, Toml.BareKey (s.key f)
  key_inj : ∀ f g, s.key f = s.key g → f = g
  fits : ∀ c f, (s.get c f).Fits (s.kind f)
  get_put : ∀ c f e, e.Fits (s.kind f) → s.get (s.put c f e) f = e
  get_put_ne : ∀ c f e g, g ≠ f → s.get (s.put c f e) g = s.get c g
  ext : ∀ c d, (∀ f, s.get c f = s.get d f) → c = d

def setting (s : Schema C F) (c : C) (f : F) : Toml.Setting where
  key := s.key f
  text := (s.get c f).chars?.getD []
  value := (s.get c f).value

theorem line?_eq_none_iff : s.line? c f = none ↔ (s.get c f).chars? = none := by
  cases h : (s.get c f).chars? <;> simp [line?, h]

theorem line?_eq_some (h : s.line? c f = some l) :
    l = (s.setting c f).line ∧ (s.get c f).chars? = some (s.setting c f).text := by
  obtain ⟨value, hvalue, h⟩ := Option.bind_eq_some_iff.mp h
  obtain rfl := Option.some.inj h
  simp [setting, Toml.Setting.line, hvalue]

theorem lines?_cons : s.lines? c (f :: fs) =
    (s.line? c f).bind fun l => (s.lines? c fs).map fun ls => l ++ ls := by
  cases hl : s.line? c f <;> cases hls : fs.mapM (s.line? c) <;> simp [lines?, hl, hls]

theorem lines?_eq_none_iff : s.lines? c fs = none ↔ ∃ f ∈ fs, s.line? c f = none := by
  induction fs with
  | nil => simp [lines?]
  | cons f fs ih =>
    rw [lines?_cons]
    cases hl : s.line? c f <;> simp [hl, ih]

theorem lines?_eq_some (h : ∀ f ∈ fs, ∃ l, s.line? c f = some l) :
    s.lines? c fs = some ((fs.map (s.setting c)).flatMap Toml.Setting.line) := by
  induction fs with
  | nil => rfl
  | cons f fs ih =>
    obtain ⟨l, hl⟩ := h f List.mem_cons_self
    have hrest := ih fun g hg => h g (List.mem_cons_of_mem _ hg)
    rw [lines?_cons, hl, hrest, (line?_eq_some hl).1]
    rfl

def merge (s : Schema C F) (c : C) (fs : List F) (default : C) : C :=
  fs.foldl (fun d f => s.put d f (s.get c f)) default

namespace Lawful

variable (h : s.Lawful)
include h

theorem get_merge [DecidableEq F] (c : C) (fs : List F) (default : C) (g : F) :
    s.get (s.merge c fs default) g = if g ∈ fs then s.get c g else s.get default g := by
  induction fs generalizing default with
  | nil => rfl
  | cons f fs ih =>
    rw [merge, List.foldl_cons, ← merge, ih]
    by_cases hg : g ∈ fs
    · simp [hg]
    · by_cases hgf : g = f
      · subst hgf
        simp [hg, h.get_put _ _ _ (h.fits c g)]
      · simp [hg, hgf, h.get_put_ne _ _ _ _ hgf]

theorem field?_key (f : F) : s.field? (s.key f) = some f := by
  have hsome : (s.field? (s.key f)).isSome := by
    rw [field?, List.find?_isSome]
    exact ⟨f, h.all f, beq_self_eq_true _⟩
  obtain ⟨g, hg⟩ := Option.isSome_iff_exists.mp hsome
  have hkey : s.key g = s.key f := by simpa using List.find?_some (p := (s.key · == s.key f)) hg
  rw [hg, h.key_inj g f hkey]

theorem overlay_setting (c d : C) (f : F) :
    s.overlay d (s.key f) (s.get c f).value = .ok (s.put d f (s.get c f)) := by
  simp only [overlay, h.field?_key f, Entry.ofValue?_value (h.fits c f)]

theorem ofTable_settings (c : C) (fs : List F) (default : C) :
    s.ofTable default ((fs.map (s.setting c)).map Toml.Setting.entry) =
      .ok (s.merge c fs default) := by
  induction fs generalizing default with
  | nil => rfl
  | cons f fs ih =>
    have hput := h.overlay_setting c default f
    simp only [ofTable, List.map_cons, List.foldlM_cons] at ih ⊢
    rw [Toml.Setting.entry, setting, hput]
    exact ih _

theorem sound_setting (hf : s.line? c f = some l) : (s.setting c f).Sound where
  bare := h.bare f
  denotes := Entry.denotes (line?_eq_some hf).2

theorem ofText?_settings (hfs : fs.Nodup) (hl : ∀ f ∈ fs, ∃ l, s.line? c f = some l) :
    Toml.Table.ofText? (String.ofList ((fs.map (s.setting c)).flatMap Toml.Setting.line)) =
      some ((fs.map (s.setting c)).map Toml.Setting.entry) := by
  have hsound : ∀ p ∈ fs.map (s.setting c), p.Sound := by
    intro p hp
    obtain ⟨f, hf, rfl⟩ := List.mem_map.mp hp
    obtain ⟨l, hl⟩ := hl f hf
    exact h.sound_setting hl
  have hkeys : ((fs.map (s.setting c)).map Toml.Setting.key).Nodup := by
    rw [List.map_map]
    exact hfs.map fun f g => h.key_inj f g
  rw [Toml.Table.ofText?, String.toList_ofList, Toml.Setting.ofChars?_settings hsound hkeys]

theorem ofToml_settings (hfs : fs.Nodup) (hl : ∀ f ∈ fs, ∃ l, s.line? c f = some l)
    (default : C) :
    s.ofToml default (String.ofList ((fs.map (s.setting c)).flatMap Toml.Setting.line)) =
      .ok (s.merge c fs default) := by
  rw [ofToml, h.ofText?_settings hfs hl]
  exact h.ofTable_settings c fs default

theorem toToml?_eq_none_iff :
    s.toToml? c = none ↔ ∃ f n, s.get c f = .number n ∧ 2 ^ 63 - 1 < n := by
  rw [toToml?, Option.map_eq_none_iff, lines?_eq_none_iff]
  constructor
  · rintro ⟨f, -, hf⟩
    exact ⟨f, Entry.chars?_eq_none_iff.mp (line?_eq_none_iff.mp hf)⟩
  · rintro ⟨f, hf⟩
    exact ⟨f, h.all f, line?_eq_none_iff.mpr (Entry.chars?_eq_none_iff.mpr hf)⟩

theorem line?_of_toToml? (htext : s.toToml? c = some text) (f : F) :
    s.line? c f = some (s.setting c f).line := by
  cases hl : s.line? c f with
  | none =>
    have hnone : s.lines? c s.fields = none := lines?_eq_none_iff.mpr ⟨f, h.all f, hl⟩
    simp [toToml?, hnone] at htext
  | some l => rw [(line?_eq_some hl).1]

theorem eq_of_toToml? (htext : s.toToml? c = some text) :
    text = String.ofList ((s.fields.map (s.setting c)).flatMap Toml.Setting.line) := by
  rw [toToml?, lines?_eq_some fun f _ => ⟨_, h.line?_of_toToml? htext f⟩] at htext
  exact (Option.some.inj htext).symm

end Lawful

end Fanout.Schema
