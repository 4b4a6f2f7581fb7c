import Fanout.Address.Socket
import Fanout.Connection.Phase
import Fanout.Text.Escaped
import Fanout.Timestamp

namespace Fanout

structure ConnectionInfo where
  address : String
  peer : SocketAddress
  phase : Phase
  connectedAt : Timestamp
  deriving DecidableEq, Repr

namespace ConnectionInfo

open Text

def json (i : ConnectionInfo) : String :=
  let entry := fun key value => jsonString key ++ ":" ++ jsonString value
  "\x7b" ++
    String.intercalate ","
      [entry "address" i.address, entry "peer" i.peer.text, entry "state" i.phase.name,
        entry "connected_at" i.connectedAt.text] ++
    "\x7d"

def jsonList (infos : List ConnectionInfo) : String :=
  "[" ++ String.intercalate "," (infos.map json) ++ "]"

end ConnectionInfo

end Fanout
