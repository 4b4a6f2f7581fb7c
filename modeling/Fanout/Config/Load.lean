import Fanout.Config.Client
import Fanout.File.Tree

/-!
Configurations from files. What the file at a path holds is a parameter, so that any tree of files
can stand behind it.
-/

namespace Fanout

abbrev FileReader :=
  String → Except FileError (List UInt8)

def readConfig (files : FileReader) (path : String) : Except ConfigError String :=
  match files path >>= decodeText with
  | .ok text => .ok text
  | .error e => .error (.read path e.message)

def ServerConfig.load (files : FileReader) (path : String) : Except ConfigError ServerConfig :=
  readConfig files path >>= ServerConfig.ofToml

def ClientConfig.load (files : FileReader) (path : String) : Except ConfigError ClientConfig :=
  readConfig files path >>= ClientConfig.ofToml

end Fanout
