import Fanout.Config.Server

namespace Fanout

structure ClientConfig where
  connectTimeoutSecs : UInt32 := 10
  writeTimeoutMs : UInt64 := 10000
  readBufferSize : UInt64 := 4096
  deriving DecidableEq, Repr

inductive ClientField where
  | connectTimeoutSecs
  | writeTimeoutMs
  | readBufferSize
  deriving DecidableEq, Repr

namespace ClientField

def all : List ClientField :=
  [.connectTimeoutSecs, .writeTimeoutMs, .readBufferSize]

def key : ClientField → String
  | .connectTimeoutSecs => "connect_timeout_secs"
  | .writeTimeoutMs => "write_timeout_ms"
  | .readBufferSize => "read_buffer_size"

def kind : ClientField → Kind
  | .connectTimeoutSecs => .number UInt32.size
  | .writeTimeoutMs => .number UInt64.size
  | .readBufferSize => .number UInt64.size

theorem mem_all (f : ClientField) : f ∈ all := by
  cases f <;> decide

end ClientField

namespace ClientConfig

def get (c : ClientConfig) : ClientField → Entry
  | .connectTimeoutSecs => .number c.connectTimeoutSecs.toNat
  | .writeTimeoutMs => .number c.writeTimeoutMs.toNat
  | .readBufferSize => .number c.readBufferSize.toNat

def put (c : ClientConfig) : ClientField → Entry → ClientConfig
  | .connectTimeoutSecs, .number n => { c with connectTimeoutSecs := n.toUInt32 }
  | .writeTimeoutMs, .number n => { c with writeTimeoutMs := n.toUInt64 }
  | .readBufferSize, .number n => { c with readBufferSize := n.toUInt64 }
  | _, _ => c

def schema : Schema ClientConfig ClientField where
  fields := ClientField.all
  key := ClientField.key
  kind := ClientField.kind
  get := get
  put := put

def validate (c : ClientConfig) : Except ConfigError Unit :=
  checkTransfer c.writeTimeoutMs c.readBufferSize

def toToml? (c : ClientConfig) : Option String :=
  schema.toToml? c

def ofToml (text : String) : Except ConfigError ClientConfig := do
  let c ← schema.ofToml {} text
  c.validate
  .ok c

end ClientConfig

structure Settings where
  writeTimeoutMs : UInt64 := 10000
  readBufferSize : UInt64 := 4096
  deriving DecidableEq, Repr

def ServerConfig.settings (c : ServerConfig) : Settings where
  writeTimeoutMs := c.writeTimeoutMs
  readBufferSize := c.readBufferSize

def ClientConfig.settings (c : ClientConfig) : Settings where
  writeTimeoutMs := c.writeTimeoutMs
  readBufferSize := c.readBufferSize

end Fanout
