import Fanout.Client.Error
import Fanout.Server.Error

/-!
How a run of the program fails: what it was doing, and the chain of causes. The report names the
first on its own and then the causes, numbered if there are several.
-/

namespace Fanout.CommandLine

inductive RunError where
  | configNotLoaded (path : String) (e : ConfigError)
  | configInvalid (e : ConfigError)
  | notStarted (e : ServerError)
  | notShutDown (e : ServerError)
  | notConnected (ip : String) (port : UInt16) (e : ClientError)
  | inputUnreadable (reason : String)
  | notSent (e : ClientError)
  | notClosed (e : ClientError)
  deriving DecidableEq, Repr

namespace RunError

def context : RunError → String
  | .configNotLoaded path _ => "Failed to load config " ++ path
  | .configInvalid _ => "Invalid server configuration"
  | .notStarted _ => "Failed to start server"
  | .notShutDown _ => "Server shutdown failed"
  | .notConnected ip port _ => "Failed to connect to " ++ ip ++ ":" ++ toString port.toNat
  | .inputUnreadable _ => "Failed to read stdin"
  | .notSent _ => "Send failed"
  | .notClosed _ => "Failed to close connection"

def causes : RunError → List String
  | .configNotLoaded _ e => [e.message]
  | .configInvalid e => [e.message]
  | .notStarted e => e.message :: e.sources
  | .notShutDown e => e.message :: e.sources
  | .notConnected _ _ e => e.message :: e.sources
  | .inputUnreadable reason => [reason]
  | .notSent e => e.message :: e.sources
  | .notClosed e => e.message :: e.sources

def indented (first later s : String) : String :=
  first ++ String.intercalate ("\n" ++ later) (s.splitOn "\n")

def numberedCause (n : Nat) (cause : String) : String :=
  let number := toString n
  let space := String.ofList (List.replicate (5 - number.length) ' ')
  indented (space ++ number ++ ": ") "       " cause

def causeLines : List String → List String
  | [cause] => [indented "    " "    " cause]
  | causes => causes.zipIdx.map fun (cause, n) => numberedCause n cause

def report (e : RunError) : String :=
  "Error: " ++ e.context ++ "\n\nCaused by:\n" ++
    String.intercalate "\n" (causeLines e.causes) ++ "\n"

end RunError

end Fanout.CommandLine
