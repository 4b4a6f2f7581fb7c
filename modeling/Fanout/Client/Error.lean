import Fanout.Config.Error
import Fanout.Connection.Error

namespace Fanout

inductive ClientError where
  | connect (address : String) (reason : String)
  | connectTimeout (address : String) (secs : Nat)
  | notConnected
  | alreadyConnected
  | send (source : ConnectionError)
  | close (source : ConnectionError)
  | config (e : ConfigError)
  deriving DecidableEq, Repr

namespace ClientError

def message : ClientError → String
  | .connect address reason => "Failed to connect to " ++ address ++ ": " ++ reason
  | .connectTimeout address secs =>
      "Timeout connecting to " ++ address ++ " (" ++ toString secs ++ "s)"
  | .notConnected => "Client is not connected"
  | .alreadyConnected => "Client is already connected"
  | .send source => "Send failed: " ++ source.message
  | .close source => "Close failed: " ++ source.message
  | .config e => e.message

/-- The messages of the errors behind this one; a configuration error stands for itself. -/
def sources : ClientError → List String
  | .send source => [source.message]
  | .close source => [source.message]
  | _ => []

end ClientError

end Fanout
