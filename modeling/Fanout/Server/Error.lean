import Fanout.Address.Socket
import Fanout.Config.Error
import Fanout.Connection.Error

/-!
What can go wrong in the operations of a server. The kind of an error tells the caller whether to
give up (`setup`) or to go on.
-/

namespace Fanout

inductive ErrorKind where
  | setup
  | accept
  | send
  | lookup
  deriving DecidableEq, Repr

inductive ServerError where
  | setup (address : SocketAddress) (reason : String)
  | alreadyStarted
  | listenerClosed
  | acceptTimeout (secs : Nat)
  | accept (reason : String)
  | send (address : String) (source : ConnectionError)
  | clientNotFound (address : String)
  | shutdown (reason : String)
  | config (e : ConfigError)
  deriving DecidableEq, Repr

namespace ServerError

def message : ServerError → String
  | .setup address reason => "Failed to setup listener at " ++ address.text ++ ": " ++ reason
  | .alreadyStarted => "Server is already started"
  | .listenerClosed => "Listener is not open"
  | .acceptTimeout secs => "Timeout waiting for client (" ++ toString secs ++ "s)"
  | .accept reason => "Failed to accept client: " ++ reason
  | .send address source => "Failed to send to " ++ address ++ ": " ++ source.message
  | .clientNotFound address => "Client not found: " ++ address
  | .shutdown reason => "Shutdown failed: " ++ reason
  | .config e => e.message

def kind : ServerError → ErrorKind
  | .setup .. | .alreadyStarted | .listenerClosed | .shutdown _ | .config _ => .setup
  | .acceptTimeout _ | .accept _ => .accept
  | .send .. => .send
  | .clientNotFound _ => .lookup

/-- The messages of the errors behind this one; a configuration error stands for itself. -/
def sources : ServerError → List String
  | .send _ source => [source.message]
  | _ => []

end ServerError

end Fanout
