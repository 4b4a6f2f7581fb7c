import Fanout.CommandLine.Conclusion
import Fanout.CommandLine.Relaying
import Fanout.CommandLine.Resolve
import Fanout.Scenario.Socket

/-!
A run of the program in a world where nobody calls it and nobody answers its calls. It ends with
what it prints, with what keeps the server from listening, or with what keeps the client from
connecting.
-/

namespace Fanout

open CommandLine

namespace World

def serveFailure? (w : World) (files : FileReader) (fromEnvironment : Option String)
    (flags : ServeFlags) : Option RunError :=
  match flags.resolve files fromEnvironment with
  | .error e => some e
  | .ok c =>
      let bound := (w.bind c.bindAddress c.port).mapError SocketFault.message
      match Server.start { config := c } c.port c.autoReap bound with
      | (_, .error e) => some (.notStarted e)
      | (_, .ok _) => none

def unanswered (w : World) (ip : String) : SocketFault :=
  match Ip.ofText? ip with
  | some ip => (w.network.callFault? ip).getD .connectionRefused
  | none => .invalidArgument

/-- More than the steps that a client takes until a call that has failed is reported. -/
def fewSteps : Nat :=
  1000

def connectFailure? (w : World) (flags : ConnectFlags) : Option RunError := do
  let relay ← Relay.ofFlags? flags.config flags.ip flags.port 0
  let client ← relay.client.step Relay.behaviour (.connectFailed 0 (w.unanswered flags.ip).message)
  ((Relay.advanceWithin fewSteps { relay with client }).outcome?).bind id

def invoke (w : World) (files : FileReader) (fromEnvironment : Option String) (i : Invocation) :
    Conclusion :=
  match i.conclusion? with
  | some c => c
  | none =>
      .ofRun <|
        match i with
        | .serve flags => w.serveFailure? files fromEnvironment flags
        | .connect flags => w.connectFailure? flags
        | _ => none

end World

end Fanout
