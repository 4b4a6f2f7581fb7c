import Fanout.Config.Client
import Fanout.Proofs.Config.Overlay

namespace Fanout

namespace Schema

variable {C F : Type} {s : Schema C F} {default : C} {validate : C → Except ConfigError Unit}

def readChecked (s : Schema C F) (default : C) (validate : C → Except ConfigError Unit)
    (text : String) : Except ConfigError C := do
  let c ← s.ofToml default text
  validate c
  .ok c

/-- What a text makes of the default configuration, and which texts a configuration has: one of its
settings stands on each line, and any of the lines, in any order, set just those settings. -/
structure RoundTrips [DecidableEq F] (s : Schema C F) (default : C)
    (validate : C → Except ConfigError Unit) (toToml? : C → Option String)
    (ofToml : String → Except ConfigError C) : Prop where
  fields : s.fields.Nodup ∧ ∀ f, f ∈ s.fields
  determined : ∀ c d, (∀ f, s.get c f = s.get d f) → c = d
  unwritten : ∀ c, toToml? c = none ↔ ∃ f n, s.get c f = .number n ∧ 2 ^ 63 - 1 < n
  overlaid : ∀ c text, toToml? c = some text → ∃ line : F → List Char,
    (∀ f, s.line? c f = some (line f)) ∧ text.toList = s.fields.flatMap line ∧
      ∀ fs : List F, fs.Nodup → ∃ d,
        (∀ f, s.get d f = if f ∈ fs then s.get c f else s.get default f) ∧
          ofToml (String.ofList (fs.flatMap line)) = (validate d).map fun _ => d
  whole : ∀ c text, toToml? c = some text → validate c = .ok () → ofToml text = .ok c
  checked : ∀ text c, ofToml text = .ok c → validate c = .ok ()

theorem readChecked_eq_ok {text : String} {c : C}
    (h : s.readChecked default validate text = .ok c) : validate c = .ok () := by
  unfold readChecked at h
  cases hc : s.ofToml default text with
  | error e =>
    rw [hc] at h
    cases h
  | ok d =>
    rw [hc] at h
    cases hd : validate d with
    | error e =>
      simp only [bind, Except.bind, hd] at h
      cases h
    | ok =>
      simp only [bind, Except.bind, hd] at h
      obtain rfl := Except.ok.inj h
      exact hd

theorem readChecked_of_ofToml {text : String} {d : C} (h : s.ofToml default text = .ok d) :
    s.readChecked default validate text = (validate d).map fun _ => d := by
  rw [readChecked, h]
  rfl

theorem Lawful.merge_fields [DecidableEq F] (h : s.Lawful) (c default : C) :
    s.merge c s.fields default = c :=
  h.ext _ c fun f => (h.get_merge c s.fields default f).trans (if_pos (h.all f))

theorem Lawful.roundTrips [DecidableEq F] (h : s.Lawful) (default : C)
    (validate : C → Except ConfigError Unit) :
    s.RoundTrips default validate s.toToml? (s.readChecked default validate) := by
  have read {c : C} {text : String} (htext : s.toToml? c = some text) {fs : List F}
      (hfs : fs.Nodup) :
      s.readChecked default validate
          (String.ofList ((fs.map (s.setting c)).flatMap Toml.Setting.line)) =
        (validate (s.merge c fs default)).map fun _ => s.merge c fs default :=
    readChecked_of_ofToml
      (h.ofToml_settings hfs (fun f _ => ⟨_, h.line?_of_toToml? htext f⟩) default)
  refine ⟨⟨h.nodup, h.all⟩, h.ext, fun _ => h.toToml?_eq_none_iff, ?_, ?_,
    fun _ _ => readChecked_eq_ok⟩
  · intro c text htext
    refine ⟨fun f => (s.setting c f).line, h.line?_of_toToml? htext, ?_, fun fs hfs => ?_⟩
    · rw [h.eq_of_toToml? htext, String.toList_ofList, List.flatMap_map]
    · refine ⟨s.merge c fs default, h.get_merge c fs default, ?_⟩
      rw [← read htext hfs, List.flatMap_map]
  · intro c text htext valid
    have hread := read htext h.nodup
    rw [h.merge_fields, valid, ← h.eq_of_toToml? htext] at hread
    exact hread

end Schema

theorem ServerConfig.lawful : ServerConfig.schema.Lawful where
  all := ServerField.mem_all
  nodup := by decide
  bare f := by cases f <;> exact ⟨List.all_eq_true.mp (by decide), by decide⟩
  key_inj f g := by cases f <;> cases g <;> decide
  fits c f := by
    cases f with
    | bindAddress | autoReap => trivial
    | port => exact c.port.toNat_lt
    | backlog => exact c.backlog.toNat_lt
    | acceptTimeoutSecs => exact c.acceptTimeoutSecs.toNat_lt
    | reapIntervalMs => exact c.reapIntervalMs.toNat_lt
    | writeTimeoutMs => exact c.writeTimeoutMs.toNat_lt
    | readBufferSize => exact c.readBufferSize.toNat_lt
  get_put c f e fits := by
    cases f <;> cases e <;> try exact fits.elim
    case bindAddress | autoReap => rfl
    case port => exact congrArg Entry.number (UInt16.toNat_ofNat_of_lt fits)
    case backlog | acceptTimeoutSecs =>
      exact congrArg Entry.number (UInt32.toNat_ofNat_of_lt fits)
    case reapIntervalMs | writeTimeoutMs | readBufferSize =>
      exact congrArg Entry.number (UInt64.toNat_ofNat_of_lt fits)
  get_put_ne c f e g hne := by
    cases f <;> cases e <;> cases g <;> try rfl
    all_goals exact absurd rfl hne
  ext c d h := by
    have bindAddress := Entry.address.inj (h .bindAddress)
    have port := UInt16.toNat_inj.mp (Entry.number.inj (h .port))
    have backlog := UInt32.toNat_inj.mp (Entry.number.inj (h .backlog))
    have autoReap := Entry.flag.inj (h .autoReap)
    have reapIntervalMs := UInt64.toNat_inj.mp (Entry.number.inj (h .reapIntervalMs))
    have acceptTimeoutSecs := UInt32.toNat_inj.mp (Entry.number.inj (h .acceptTimeoutSecs))
    have writeTimeoutMs := UInt64.toNat_inj.mp (Entry.number.inj (h .writeTimeoutMs))
    have readBufferSize := UInt64.toNat_inj.mp (Entry.number.inj (h .readBufferSize))
    cases c
    cases d
    simp only [ServerConfig.mk.injEq]
    exact ⟨bindAddress, port, backlog, autoReap, reapIntervalMs, acceptTimeoutSecs, writeTimeoutMs,
      readBufferSize⟩

theorem ClientConfig.lawful : ClientConfig.schema.Lawful where
  all := ClientField.mem_all
  nodup := by decide
  bare f := by cases f <;> exact ⟨List.all_eq_true.mp (by decide), by decide⟩
  key_inj f g := by cases f <;> cases g <;> decide
  fits c f := by
    cases f with
    | connectTimeoutSecs => exact c.connectTimeoutSecs.toNat_lt
    | writeTimeoutMs => exact c.writeTimeoutMs.toNat_lt
    | readBufferSize => exact c.readBufferSize.toNat_lt
  get_put c f e fits := by
    cases f <;> cases e <;> try exact fits.elim
    case connectTimeoutSecs => exact congrArg Entry.number (UInt32.toNat_ofNat_of_lt fits)
    case writeTimeoutMs | readBufferSize =>
      exact congrArg Entry.number (UInt64.toNat_ofNat_of_lt fits)
  get_put_ne c f e g hne := by
    cases f <;> cases e <;> cases g <;> try rfl
    all_goals exact absurd rfl hne
  ext c d h := by
    have connectTimeoutSecs := UInt32.toNat_inj.mp (Entry.number.inj (h .connectTimeoutSecs))
    have writeTimeoutMs := UInt64.toNat_inj.mp (Entry.number.inj (h .writeTimeoutMs))
    have readBufferSize := UInt64.toNat_inj.mp (Entry.number.inj (h .readBufferSize))
    cases c
    cases d
    simp only [ClientConfig.mk.injEq]
    exact ⟨connectTimeoutSecs, writeTimeoutMs, readBufferSize⟩

theorem config_texts_round_trip :
    ServerConfig.schema.RoundTrips {} ServerConfig.validate ServerConfig.toToml?
        ServerConfig.ofToml ∧
      ClientConfig.schema.RoundTrips {} ClientConfig.validate ClientConfig.toToml?
        ClientConfig.ofToml :=
  ⟨ServerConfig.lawful.roundTrips {} ServerConfig.validate,
    ClientConfig.lawful.roundTrips {} ClientConfig.validate⟩

def gateway : ServerConfig where
  bindAddress := Ip.loopback.mapped
  port := 8080
  autoReap := false
  readBufferSize := 9223372036854775807

theorem gateway_overlays_default :
    ∃ text line, gateway.toToml? = some text ∧ ServerConfig.ofToml text = .ok gateway ∧
      (∀ f, ServerConfig.schema.line? gateway f = some (line f)) ∧
      ServerConfig.ofToml
          (String.ofList ([ServerField.readBufferSize, .bindAddress].flatMap line)) =
        .ok { bindAddress := Ip.loopback.mapped, readBufferSize := 9223372036854775807 } := by
  obtain ⟨server, -⟩ := config_texts_round_trip
  have writes : gateway.toToml?.isSome = true := by decide +kernel
  obtain ⟨text, htext⟩ := Option.isSome_iff_exists.mp writes
  obtain ⟨line, hline, -, hread⟩ := server.overlaid gateway text htext
  obtain ⟨d, hd, hread⟩ := hread [.readBufferSize, .bindAddress] (by decide)
  have hsame : d =
      { bindAddress := Ip.loopback.mapped, readBufferSize := 9223372036854775807 } := by
    refine server.determined d _ fun f => ?_
    rw [hd f]
    cases f <;> rfl
  subst hsame
  exact ⟨text, line, htext, server.whole gateway text htext rfl, hline, hread⟩

end Fanout
