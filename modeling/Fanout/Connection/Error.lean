namespace Fanout

inductive ConnectionError where
  | closed
  | io (reason : String)
  | writeTimeout
  | alreadyListening
  deriving DecidableEq, Repr

def ConnectionError.message : ConnectionError → String
  | .closed => "Connection is closed"
  | .io reason => "I/O error: " ++ reason
  | .writeTimeout => "Write timeout"
  | .alreadyListening => "Receive task already started"

end Fanout
