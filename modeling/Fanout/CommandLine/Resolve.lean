import Fanout.CommandLine.Command
import Fanout.CommandLine.RunError
import Fanout.Config.Load

/-!
The configuration that a server is to run with: flags come before the file, and the file before the
defaults. The file is the one that is asked for, else the one that the environment names.
-/

namespace Fanout.CommandLine

def configVariable : String :=
  "TCPBUS_CONFIG"

namespace ServeFlags

def path? (f : ServeFlags) (fromEnvironment : Option String) : Option String :=
  f.config.or fromEnvironment

def overlay (f : ServeFlags) (c : ServerConfig) : ServerConfig :=
  { c with
    bindAddress := f.bind.getD c.bindAddress
    port := f.port.getD c.port
    backlog := f.backlog.getD c.backlog
    autoReap := if f.noReap then false else c.autoReap
    acceptTimeoutSecs := f.acceptTimeout.getD c.acceptTimeoutSecs }

/-- The configuration without the flags; one from a file has to be valid by itself. -/
def base (f : ServeFlags) (files : FileReader) (fromEnvironment : Option String) :
    Except RunError ServerConfig :=
  match f.path? fromEnvironment with
  | none => .ok {}
  | some path =>
      match ServerConfig.load files path with
      | .ok c => .ok c
      | .error e => .error (.configNotLoaded path e)

def resolve (f : ServeFlags) (files : FileReader) (fromEnvironment : Option String) :
    Except RunError ServerConfig :=
  match f.base files fromEnvironment with
  | .error e => .error e
  | .ok c =>
      let c := f.overlay c
      match c.validate with
      | .ok () => .ok c
      | .error e => .error (.configInvalid e)

end ServeFlags

def ConnectFlags.config (f : ConnectFlags) : ClientConfig :=
  let c : ClientConfig := {}
  { c with connectTimeoutSecs := f.connectTimeout.getD c.connectTimeoutSecs }

end Fanout.CommandLine
