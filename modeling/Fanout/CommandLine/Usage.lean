import Fanout.CommandLine.Command

namespace Fanout.CommandLine

def programName : String :=
  "tcpbus"

def versionText : String :=
  programName ++ " 0.1.0\n"

def UsageError.message : UsageError → String
  | .noCommand => "a subcommand is required"
  | .unknownCommand word => "unrecognized subcommand '" ++ word ++ "'"
  | .unknownOption word => "unexpected argument '" ++ word ++ "' found"
  | .missingValue option => "a value is required for '--" ++ option ++ "' but none was supplied"
  | .unexpectedValue option => "unexpected value for '--" ++ option ++ "' found; no more were expected"
  | .unusableValue name value => "invalid value '" ++ value ++ "' for '" ++ name ++ "'"
  | .repeated option => "the argument '--" ++ option ++ "' cannot be used multiple times"
  | .unexpectedOperand word => "unexpected argument '" ++ word ++ "' found"
  | .missingOperand name => "the required argument <" ++ name ++ "> was not provided"

def padded (width : Nat) (s : String) : String :=
  s ++ String.ofList (List.replicate (width - s.length) ' ')

def columns (rows : List (String × String)) : String :=
  let width := (rows.map fun (name, _) => name.length).foldl max 0
  String.join (rows.map fun (name, about) => "  " ++ padded width name ++ "  " ++ about ++ "\n")

def optionTitle (o : OptionRule) : String :=
  let letter :=
    match o.letter with
    | some c => "-" ++ String.singleton c ++ ", "
    | none => "    "
  let value := if o.value.isSome then " <" ++ o.name.toUpper ++ ">" else ""
  letter ++ "--" ++ o.name ++ value

def helpRow : String × String :=
  ("-h, --help", "Print help")

def commandHelp (name about : String) (r : Rules) : String :=
  let operands := r.operands.map fun o => ("<" ++ o.name ++ ">", o.about)
  let options := r.options.map fun o => (optionTitle o, o.about)
  let usage := String.intercalate " " ([programName, name, "[OPTIONS]"] ++ operands.map Prod.fst)
  about ++ "\n\nUsage: " ++ usage ++ "\n\n" ++
    (if operands.isEmpty then "" else "Arguments:\n" ++ columns operands ++ "\n") ++
    "Options:\n" ++ columns (options ++ [helpRow])

def programHelp : String :=
  "TCP fan-out server and client\n\nUsage: " ++ programName ++ " <COMMAND>\n\nCommands:\n" ++
    columns commands ++ "\nOptions:\n" ++ columns [helpRow, ("-V, --version", "Print version")]

def helpText : Option String → String
  | none => programHelp
  | some name =>
      let about := (commands.lookup name).getD ""
      if name = "serve" then commandHelp name about serveRules
      else if name = "connect" then commandHelp name about connectRules
      else about ++ "\n\nUsage: " ++ programName ++ " help [COMMAND]...\n"

def misuseText (e : UsageError) : String :=
  "error: " ++ e.message ++ "\n\nFor more information, try '--help'.\n"

end Fanout.CommandLine
