namespace Fanout

inductive Phase where
  | created
  | listening
  | disconnected
  deriving DecidableEq, Repr

def Phase.name : Phase → String
  | .created => "created"
  | .listening => "listening"
  | .disconnected => "disconnected"

def Phase.title : Phase → String
  | .created => "Created"
  | .listening => "Listening"
  | .disconnected => "Disconnected"

end Fanout
