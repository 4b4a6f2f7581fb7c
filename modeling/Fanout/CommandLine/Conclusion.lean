import Fanout.CommandLine.RunError
import Fanout.CommandLine.Usage

namespace Fanout.CommandLine

structure Conclusion where
  code : UInt32
  output : String := ""
  complaint : String := ""
  deriving DecidableEq, Repr

namespace Conclusion

def ofRun : Option RunError → Conclusion
  | none => { code := 0 }
  | some e => { code := 1, complaint := e.report }

def ofMisuse (e : UsageError) : Conclusion where
  code := 2
  complaint := misuseText e

end Conclusion

def Invocation.conclusion? : Invocation → Option Conclusion
  | .help command => some { code := 0, output := helpText command }
  | .version => some { code := 0, output := versionText }
  | .misused e => some (.ofMisuse e)
  | _ => none

end Fanout.CommandLine
