import Fanout.CommandLine.Conclusion
import Fanout.CommandLine.RelayLoop
import Fanout.CommandLine.Resolve
import Fanout.CommandLine.ServeLoop

namespace Fanout.CommandLine

def conclude (c : Conclusion) : IO UInt32 := do
  IO.print c.output
  IO.eprint c.complaint
  return c.code

def filesFor (flags : ServeFlags) (fromEnvironment : Option String) : IO FileReader :=
  match flags.path? fromEnvironment with
  | some path => Machine.look path
  | none => return fun _ => .error .notFound

def runServe (flags : ServeFlags) : IO (Option RunError) := do
  let fromEnvironment ← IO.getEnv configVariable
  let files ← filesFor flags fromEnvironment
  match flags.resolve files fromEnvironment with
  | .error e => return some e
  | .ok c => serve c flags.echo flags.json

def run (i : Invocation) : IO UInt32 := do
  match i, i.conclusion? with
  | _, some c => conclude c
  | .serve flags, none =>
      let failure ← runServe flags
      conclude (.ofRun failure)
  | .connect flags, none =>
      let failure ← relay flags
      conclude (.ofRun failure)
  | _, none => return 0

end Fanout.CommandLine

def main (args : List String) : IO UInt32 :=
  Fanout.CommandLine.run (Fanout.CommandLine.Invocation.ofWords args)
