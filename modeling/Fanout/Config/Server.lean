import Fanout.Config.Entry

namespace Fanout

structure ServerConfig where
  bindAddress : Ip := .unspecified
  port : UInt16 := 65123
  backlog : UInt32 := 10
  autoReap : Bool := true
  reapIntervalMs : UInt64 := 2000
  acceptTimeoutSecs : UInt32 := 0
  writeTimeoutMs : UInt64 := 10000
  readBufferSize : UInt64 := 4096
  deriving DecidableEq, Repr

inductive ServerField where
  | bindAddress
  | port
  | backlog
  | autoReap
  | reapIntervalMs
  | acceptTimeoutSecs
  | writeTimeoutMs
  | readBufferSize
  deriving DecidableEq, Repr

def checkTransfer (writeTimeoutMs readBufferSize : UInt64) : Except ConfigError Unit :=
  if writeTimeoutMs = 0 then .error (.zero "write_timeout_ms")
  else if readBufferSize = 0 then .error (.zero "read_buffer_size")
  else .ok ()

namespace ServerField

def all : List ServerField :=
  [.bindAddress, .port, .backlog, .autoReap, .reapIntervalMs, .acceptTimeoutSecs, .writeTimeoutMs,
    .readBufferSize]

def key : ServerField → String
  | .bindAddress => "bind_address"
  | .port => "port"
  | .backlog => "backlog"
  | .autoReap => "auto_reap"
  | .reapIntervalMs => "reap_interval_ms"
  | .acceptTimeoutSecs => "accept_timeout_secs"
  | .writeTimeoutMs => "write_timeout_ms"
  | .readBufferSize => "read_buffer_size"

def kind : ServerField → Kind
  | .bindAddress => .address
  | .port => .number UInt16.size
  | .backlog => .number UInt32.size
  | .autoReap => .flag
  | .reapIntervalMs => .number UInt64.size
  | .acceptTimeoutSecs => .number UInt32.size
  | .writeTimeoutMs => .number UInt64.size
  | .readBufferSize => .number UInt64.size

theorem mem_all (f : ServerField) : f ∈ all := by
  cases f <;> decide

end ServerField

namespace ServerConfig

def get (c : ServerConfig) : ServerField → Entry
  | .bindAddress => .address c.bindAddress
  | .port => .number c.port.toNat
  | .backlog => .number c.backlog.toNat
  | .autoReap => .flag c.autoReap
  | .reapIntervalMs => .number c.reapIntervalMs.toNat
  | .acceptTimeoutSecs => .number c.acceptTimeoutSecs.toNat
  | .writeTimeoutMs => .number c.writeTimeoutMs.toNat
  | .readBufferSize => .number c.readBufferSize.toNat

def put (c : ServerConfig) : ServerField → Entry → ServerConfig
  | .bindAddress, .address ip => { c with bindAddress := ip }
  | .port, .number n => { c with port := n.toUInt16 }
  | .backlog, .number n => { c with backlog := n.toUInt32 }
  | .autoReap, .flag b => { c with autoReap := b }
  | .reapIntervalMs, .number n => { c with reapIntervalMs := n.toUInt64 }
  | .acceptTimeoutSecs, .number n => { c with acceptTimeoutSecs := n.toUInt32 }
  | .writeTimeoutMs, .number n => { c with writeTimeoutMs := n.toUInt64 }
  | .readBufferSize, .number n => { c with readBufferSize := n.toUInt64 }
  | _, _ => c

def schema : Schema ServerConfig ServerField where
  fields := ServerField.all
  key := ServerField.key
  kind := ServerField.kind
  get := get
  put := put

/-- The first setting, in this order, that makes the configuration unusable. -/
def validate (c : ServerConfig) : Except ConfigError Unit :=
  if c.backlog = 0 then .error (.zero "backlog")
  else if c.reapIntervalMs = 0 then .error (.zero "reap_interval_ms")
  else checkTransfer c.writeTimeoutMs c.readBufferSize

def Valid (c : ServerConfig) : Prop :=
  c.backlog ≠ 0 ∧ c.reapIntervalMs ≠ 0 ∧ c.writeTimeoutMs ≠ 0 ∧ c.readBufferSize ≠ 0

theorem validate_eq_ok_iff (c : ServerConfig) : c.validate = .ok () ↔ c.Valid := by
  unfold validate checkTransfer Valid
  repeat' split
  all_goals simp_all

def toToml? (c : ServerConfig) : Option String :=
  schema.toToml? c

def ofToml (text : String) : Except ConfigError ServerConfig := do
  let c ← schema.ofToml {} text
  c.validate
  .ok c

end ServerConfig

end Fanout
