import Fanout.CommandLine.Usage
import Fanout.Connection.Info

namespace Fanout.CommandLine

def infoRow (i : ConnectionInfo) : String :=
  String.intercalate " "
    [padded 15 i.address, padded 21 i.peer.text, padded 12 i.phase.name, i.connectedAt.offsetText]

def table : List ConnectionInfo → String
  | [] => "no connected clients\n"
  | infos => String.join (infos.map fun i => infoRow i ++ "\n")

def listing (json : Bool) (infos : List ConnectionInfo) : String :=
  if json then ConnectionInfo.jsonList infos ++ "\n" else table infos

end Fanout.CommandLine
