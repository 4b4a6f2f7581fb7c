import Fanout.CommandLine.Resolve
import Fanout.Proofs.Config.Decoding
import Fanout.Proofs.Config.RoundTrip

namespace Fanout.CommandLine

variable {files files' : FileReader} {t t' : Toml.Table} {file file' merged : ServerConfig}
  {path : Option String} {f : ServeFlags} {fromEnvironment : Option String}

/-- The document at a path, all of whose settings can be read; without a path there is nothing. -/
inductive Decodes (files : FileReader) : Option String → Toml.Table → Prop
  | unnamed : Decodes files none []
  | file {path text : String} {t : Toml.Table} (readable : readConfig files path = .ok text)
      (document : Toml.Table.ofText? text = some t)
      (fits : ServerConfig.schema.Decodable t) : Decodes files (some path) t

def ServeFlags.given? (f : ServeFlags) : ServerField → Option Entry
  | .bindAddress => f.bind.map .address
  | .port => f.port.map fun port => .number port.toNat
  | .backlog => f.backlog.map fun n => .number n.toNat
  | .autoReap => if f.noReap then some (.flag false) else none
  | .acceptTimeoutSecs => f.acceptTimeout.map fun secs => .number secs.toNat
  | .reapIntervalMs | .writeTimeoutMs | .readBufferSize => none

/-- Each setting is the flag's if there is one, else the document's, and else the default. -/
def Merges (f : ServeFlags) (t : Toml.Table) (c : ServerConfig) : Prop :=
  ∀ field, c.get field =
    ((f.given? field).or (ServerConfig.schema.stated? t field)).getD
      (ServerConfig.get {} field)

theorem get_overlay (f : ServeFlags) (c : ServerConfig) (field : ServerField) :
    (f.overlay c).get field = (f.given? field).getD (c.get field) := by
  unfold ServeFlags.overlay ServerConfig.get ServeFlags.given?
  cases field with
  | bindAddress => cases f.bind <;> rfl
  | port => cases f.port <;> rfl
  | backlog => cases f.backlog <;> rfl
  | autoReap => cases f.noReap <;> rfl
  | acceptTimeoutSecs => cases f.acceptTimeout <;> rfl
  | reapIntervalMs | writeTimeoutMs | readBufferSize => rfl

theorem exists_fills (h : Decodes files path t) :
    ∃ file, ServerConfig.schema.Fills {} t file := by
  cases h with
  | unnamed => exact ⟨{}, fun _ => rfl⟩
  | file _ document fits =>
    obtain ⟨file, -, hfile⟩ :=
      ServerConfig.lawful.exists_ofTable {} (Toml.keyed_of_ofText? document) fits
    exact ⟨file, hfile⟩

theorem merges_overlay (h : ServerConfig.schema.Fills {} t file) : Merges f t (f.overlay file) := by
  intro field
  rw [get_overlay, show file.get field = _ from h field]
  cases f.given? field <;> rfl

theorem eq_of_merges {c d : ServerConfig} (hc : Merges f t c) (hd : Merges f t d) : c = d :=
  ServerConfig.lawful.ext c d fun field => (hc field).trans (hd field).symm

def sole (text : String) : FileReader := fun _ => .ok text.toByteArray.data.toList

def settingsText (c : ServerConfig) (fields : List ServerField) : String :=
  String.ofList ((fields.map (ServerConfig.schema.setting c)).flatMap Toml.Setting.line)

def settingsTable (c : ServerConfig) (fields : List ServerField) : Toml.Table :=
  (fields.map (ServerConfig.schema.setting c)).map Toml.Setting.entry

theorem decodeText_encoded (text : String) :
    decodeText text.toByteArray.data.toList = .ok text := by
  have hvalid : String.fromUTF8? text.toByteArray = some text := dif_pos text.isValidUTF8
  have hbytes : (⟨text.toByteArray.data.toList.toArray⟩ : ByteArray) = text.toByteArray := rfl
  rw [decodeText, hbytes, hvalid]

theorem readConfig_sole (text path : String) : readConfig (sole text) path = .ok text := by
  have hread : (sole text path >>= decodeText) = .ok text := decodeText_encoded text
  rw [readConfig, hread]

theorem decodes_settings {c : ServerConfig} {fields : List ServerField} (hfields : fields.Nodup)
    (hl : ∀ field ∈ fields, ∃ l, ServerConfig.schema.line? c field = some l) (path : String) :
    Decodes (sole (settingsText c fields)) (some path) (settingsTable c fields) :=
  .file (readConfig_sole _ path) (ServerConfig.lawful.ofText?_settings hfields hl)
    (ServerConfig.lawful.decodable_settings c fields)

theorem decodes_backlog (n : UInt32) (path : String) :
    Decodes (sole (settingsText { backlog := n } [.backlog])) (some path)
      (settingsTable { backlog := n } [.backlog]) := by
  refine decodes_settings (List.nodup_singleton _) (fun field hfield => ?_) path
  obtain rfl := List.mem_singleton.mp hfield
  refine Option.ne_none_iff_exists'.mp fun hnone => ?_
  obtain ⟨m, hm, hlarge⟩ := Entry.chars?_eq_none_iff.mp (Schema.line?_eq_none_iff.mp hnone)
  obtain rfl : n.toNat = m := Entry.number.inj hm
  have hn := n.toNat_lt
  omega

theorem fills_backlog (n : UInt32) :
    ServerConfig.schema.Fills {} (settingsTable { backlog := n } [.backlog]) { backlog := n } := by
  have hfills := ServerConfig.lawful.fills_settings { backlog := n } [.backlog] {}
  have hmerge : ServerConfig.schema.merge { backlog := n } [.backlog] {} =
      ({ backlog := n } : ServerConfig) :=
    congrArg (fun m : UInt32 => ({ backlog := m } : ServerConfig)) UInt32.ofNat_toNat
  rwa [hmerge] at hfills

theorem load_of_decodes {path : String} (h : Decodes files (some path) t)
    (hfile : ServerConfig.schema.Fills {} t file) :
    ServerConfig.load files path = file.validate.map fun _ => file := by
  cases h with
  | @file _ text _ readable document fits =>
    obtain ⟨c, hc, hfills⟩ :=
      ServerConfig.lawful.exists_ofTable {} (Toml.keyed_of_ofText? document) fits
    obtain rfl := ServerConfig.lawful.eq_of_fills hfills hfile
    have hread : ServerConfig.schema.ofToml {} text = .ok c := by
      rw [Schema.ofToml, document]
      exact hc
    rw [ServerConfig.load, readable]
    exact Schema.readChecked_of_ofToml hread

theorem resolve_of_decodes (h : Decodes files (f.path? fromEnvironment) t)
    (hfile : ServerConfig.schema.Fills {} t file) :
    f.resolve files fromEnvironment =
      match file.validate with
      | .error e => .error (.configNotLoaded ((f.path? fromEnvironment).getD "") e)
      | .ok () =>
          match (f.overlay file).validate with
          | .ok () => .ok (f.overlay file)
          | .error e => .error (.configInvalid e) := by
  cases hp : f.path? fromEnvironment with
  | none =>
    rw [hp] at h
    cases h
    obtain rfl : file = {} := ServerConfig.lawful.eq_of_fills hfile fun _ => rfl
    have hvalid : ServerConfig.validate {} = .ok () := rfl
    cases hm : (f.overlay {}).validate <;>
      simp only [ServeFlags.resolve, ServeFlags.base, hp, hvalid, hm]
  | some path =>
    have hload := load_of_decodes (hp ▸ h) hfile
    simp only [ServeFlags.resolve, ServeFlags.base, hp, hload]
    cases file.validate <;> rfl

theorem validate_of_overlay (h : (f.overlay file).validate = .ok ()) :
    file.validate = .ok () ↔ file.backlog ≠ 0 := by
  rw [ServerConfig.validate_eq_ok_iff] at h ⊢
  exact ⟨And.left, fun hb => ⟨hb, h.2⟩⟩

theorem validate_congr {c d : ServerConfig} (hb : c.backlog = 0 ↔ d.backlog = 0)
    (hr : c.reapIntervalMs = d.reapIntervalMs) (hw : c.writeTimeoutMs = d.writeTimeoutMs)
    (hs : c.readBufferSize = d.readBufferSize) : c.validate = d.validate := by
  simp only [ServerConfig.validate, hb, hr, hw, hs]

section Two

variable (hsame : ∀ field, f.given? field = none → file'.get field = file.get field)
include hsame

theorem overlay_congr : f.overlay file' = f.overlay file := by
  refine ServerConfig.lawful.ext _ _ fun field => ?_
  change (f.overlay file').get field = (f.overlay file).get field
  rw [get_overlay, get_overlay]
  cases hg : f.given? field with
  | some e => rfl
  | none => exact hsame field hg

theorem validate_unflagged (hb : file'.backlog = 0 ↔ file.backlog = 0) :
    file'.validate = file.validate :=
  validate_congr hb (UInt64.toNat_inj.mp (Entry.number.inj (hsame .reapIntervalMs rfl)))
    (UInt64.toNat_inj.mp (Entry.number.inj (hsame .writeTimeoutMs rfl)))
    (UInt64.toNat_inj.mp (Entry.number.inj (hsame .readBufferSize rfl)))

end Two

theorem flags_precede_usable_file (decodes : Decodes files (f.config.or fromEnvironment) t) :
    ∃ file merged, ServerConfig.schema.Fills {} t file ∧ Merges f t merged ∧
      (∀ c, f.resolve files fromEnvironment = .ok c ↔
        c = merged ∧ merged.validate = .ok () ∧ file.backlog ≠ 0) ∧
      ∀ files' t' file', Decodes files' (f.config.or fromEnvironment) t' →
        ServerConfig.schema.Fills {} t' file' →
        (∀ field, f.given? field = none → file'.get field = file.get field) →
        (file'.backlog = 0 ↔ file.backlog = 0) →
        f.resolve files' fromEnvironment = f.resolve files fromEnvironment := by
  obtain ⟨file, hfile⟩ := exists_fills decodes
  have hresolve := resolve_of_decodes decodes hfile
  refine ⟨file, f.overlay file, hfile, merges_overlay hfile, fun c => ?_, ?_⟩
  · rw [hresolve]
    constructor
    · intro h
      split at h
      · cases h
      · rename_i hvalid
        split at h
        · rename_i hmerged
          exact ⟨(Except.ok.inj h).symm, hmerged, (validate_of_overlay hmerged).mp hvalid⟩
        · cases h
    · rintro ⟨rfl, hmerged, hb⟩
      simp only [(validate_of_overlay hmerged).mpr hb, hmerged]
  · intro files' t' file' decodes' hfile' hsame hb
    rw [hresolve, resolve_of_decodes decodes' hfile', validate_unflagged hsame hb,
      overlay_congr hsame]

def portFlag : ServeFlags := { port := some 8000, noReap := true }

theorem port_flag_precedes_file :
    Decodes (sole (settingsText { backlog := 3 } [.backlog])) (some "gateway.toml")
        (settingsTable { backlog := 3 } [.backlog]) ∧
      portFlag.resolve (sole (settingsText { backlog := 3 } [.backlog])) (some "gateway.toml") =
        .ok { port := 8000, backlog := 3, autoReap := false } := by
  have decodes : Decodes (sole (settingsText { backlog := 3 } [.backlog]))
      (portFlag.config.or (some "gateway.toml")) (settingsTable { backlog := 3 } [.backlog]) :=
    decodes_backlog 3 "gateway.toml"
  obtain ⟨file, merged, hfile, hmerged, hresolve, -⟩ := flags_precede_usable_file decodes
  obtain rfl := ServerConfig.lawful.eq_of_fills hfile (fills_backlog 3)
  obtain rfl := eq_of_merges hmerged (merges_overlay hfile)
  exact ⟨decodes, (hresolve _).mpr ⟨rfl, rfl, by decide⟩⟩

def backlogFlag : ServeFlags := { config := some "gateway.toml", backlog := some 5 }

theorem flag_does_not_mend_file :
    (¬ ∀ (files : FileReader) (t : Toml.Table) (merged : ServerConfig),
      Decodes files (some "gateway.toml") t → Merges backlogFlag t merged →
        ∀ c, backlogFlag.resolve files none = .ok c ↔ c = merged ∧ merged.validate = .ok ()) ∧
      ¬ ∀ (files files' : FileReader) (t t' : Toml.Table) (file file' : ServerConfig),
        Decodes files (some "gateway.toml") t → ServerConfig.schema.Fills {} t file →
        Decodes files' (some "gateway.toml") t' → ServerConfig.schema.Fills {} t' file' →
        (∀ field, backlogFlag.given? field = none → file'.get field = file.get field) →
          backlogFlag.resolve files' none = backlogFlag.resolve files none := by
  have decodes (n : UInt32) : Decodes (sole (settingsText { backlog := n } [.backlog]))
      (backlogFlag.path? none) (settingsTable { backlog := n } [.backlog]) :=
    decodes_backlog n "gateway.toml"
  have refused : backlogFlag.resolve (sole (settingsText { backlog := 0 } [.backlog])) none =
      .error (.configNotLoaded "gateway.toml" (.zero "backlog")) :=
    resolve_of_decodes (decodes 0) (fills_backlog 0)
  have accepted : backlogFlag.resolve (sole (settingsText { backlog := 1 } [.backlog])) none =
      .ok { backlog := 5 } :=
    resolve_of_decodes (decodes 1) (fills_backlog 1)
  constructor
  · intro h
    have hok := (h _ _ _ (decodes 0) (merges_overlay (fills_backlog 0))
      { backlog := 5 }).mpr ⟨rfl, rfl⟩
    rw [refused] at hok
    cases hok
  · intro h
    have hsame := h _ _ _ _ _ _ (decodes 1) (fills_backlog 1) (decodes 0) (fills_backlog 0) fun field hfield => by
        cases field <;> first | rfl | cases hfield
    rw [refused, accepted] at hsame
    cases hsame

end Fanout.CommandLine
