import Fanout.Observer.Basic
import Fanout.Text.Escaped

namespace Fanout.Observer

open Text

def flagText (b : Bool) : String :=
  if b then "true" else "false"

def description (o : Observer) : String :=
  let filter :=
    match o.filter with
    | none => "None"
    | some f => "Some(" ++ described f ++ ")"
  "Observer \x7b filter: " ++ filter ++ ", on_message: " ++ flagText o.onMessage.isSome ++
    ", on_disconnect: " ++ flagText o.onDisconnect.isSome ++ " \x7d"

def spreadDescription (o : Observer) : String :=
  let filter :=
    match o.filter with
    | none => "None"
    | some f => "Some(\n        " ++ described f ++ ",\n    )"
  "Observer \x7b\n    filter: " ++ filter ++ ",\n    on_message: " ++
    flagText o.onMessage.isSome ++ ",\n    on_disconnect: " ++ flagText o.onDisconnect.isSome ++
    ",\n\x7d"

end Fanout.Observer
