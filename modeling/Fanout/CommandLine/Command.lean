import Fanout.Address.Text
import Fanout.CommandLine.Option

namespace Fanout.CommandLine

open Text

structure ServeFlags where
  config : Option String := none
  bind : Option Ip := none
  port : Option UInt16 := none
  backlog : Option UInt32 := none
  noReap : Bool := false
  acceptTimeout : Option UInt32 := none
  echo : Bool := false
  json : Bool := false
  deriving DecidableEq, Repr

structure ConnectFlags where
  ip : String
  port : UInt16
  connectTimeout : Option UInt32 := none
  deriving DecidableEq, Repr

inductive Invocation where
  | serve (flags : ServeFlags)
  | connect (flags : ConnectFlags)
  | help (command : Option String)
  | version
  | misused (e : UsageError)
  deriving DecidableEq, Repr

/-- An integer below a bound, in decimal digits after an optional sign. -/
def natural? (bound : Nat) (s : String) : Option Nat :=
  let magnitude := fun cs => (value? 10 cs).filter (· < bound)
  match s.toList with
  | '+' :: cs => magnitude cs
  | '-' :: cs => (magnitude cs).filter (· = 0)
  | cs => magnitude cs

def port? (s : String) : Option UInt16 :=
  (natural? UInt16.size s).map Nat.toUInt16

def count? (s : String) : Option UInt32 :=
  (natural? UInt32.size s).map Nat.toUInt32

def serveRules : Rules where
  options :=
    [{ name := "config", letter := some 'c', value := some fun s => s != ""
       about := "TOML config file (defaults to $TCPBUS_CONFIG)" },
      { name := "bind", value := some fun s => (Ip.ofText? s).isSome
        about := "Address to bind" },
      { name := "port", letter := some 'p', value := some fun s => (port? s).isSome
        about := "Port to listen on" },
      { name := "backlog", value := some fun s => (count? s).isSome, about := "Listen backlog" },
      { name := "no-reap", about := "Do not evict dead connections in the background" },
      { name := "accept-timeout", value := some fun s => (count? s).isSome
        about := "Seconds to wait per accept before retrying (0 = block)" },
      { name := "echo", about := "Send every payload back to the address it came from" },
      { name := "json", about := "Print the connection list as JSON after each accept" }]

def connectRules : Rules where
  options :=
    [{ name := "connect-timeout", value := some fun s => (count? s).isSome
       about := "Seconds to wait for the connection (0 = no bound)" }]
  operands :=
    [{ name := "IP", value := fun _ => true, about := "Server IP address" },
      { name := "PORT", value := fun s => (port? s).isSome, about := "Server port" }]

def serveFlags (g : Given) : ServeFlags where
  config := g.find? "config"
  bind := g.find? "bind" >>= Ip.ofText?
  port := g.find? "port" >>= port?
  backlog := g.find? "backlog" >>= count?
  noReap := g.has "no-reap"
  acceptTimeout := g.find? "accept-timeout" >>= count?
  echo := g.has "echo"
  json := g.has "json"

def connectFlags (g : Given) : ConnectFlags where
  ip := g.operands[0]?.getD ""
  port := (g.operands[1]? >>= port?).getD 0
  connectTimeout := g.find? "connect-timeout" >>= count?

def commands : List (String × String) :=
  [("serve", "Run a server and log every payload it receives"),
    ("connect", "Connect to a server; stdin lines are sent, payloads are printed"),
    ("help", "Print this message or the help of the given subcommand(s)")]

def isCommand (word : String) : Bool :=
  commands.any fun (name, _) => name == word

def helpFor : List String → Invocation
  | [] => .help none
  | [word] => if isCommand word then .help (some word) else .misused (.unknownCommand word)
  | _ :: word :: _ => .misused (.unknownCommand word)

def Invocation.ofWords : List String → Invocation
  | [] => .misused .noCommand
  | word :: words =>
      if word = "serve" then
        match scan serveRules {} words with
        | .ok g => .serve (serveFlags g)
        | .error .help => .help (some "serve")
        | .error (.misused e) => .misused e
      else if word = "connect" then
        match scan connectRules {} words with
        | .ok g => .connect (connectFlags g)
        | .error .help => .help (some "connect")
        | .error (.misused e) => .misused e
      else if word = "help" then helpFor words
      else if word = "--help" || word.startsWith "-h" then .help none
      else if word = "--version" || word.startsWith "-V" then .version
      else if looksLikeOption word then .misused (.unknownOption word)
      else .misused (.unknownCommand word)

end Fanout.CommandLine
