namespace Fanout

inductive ConfigError where
  | read (path : String) (reason : String)
  | parse (reason : String)
  | invalid (reason : String)
  deriving DecidableEq, Repr

namespace ConfigError

def message : ConfigError → String
  | .read path reason => "Failed to read config " ++ path ++ ": " ++ reason
  | .parse reason => "Failed to parse config: " ++ reason
  | .invalid reason => "Invalid config: " ++ reason

def zero (key : String) : ConfigError :=
  .invalid (key ++ " must be at least 1")

end ConfigError

end Fanout
