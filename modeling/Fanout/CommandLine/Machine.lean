import Fanout.Address.Socket
import Fanout.Config.Load
import Fanout.SocketFault
import Std.Async.TCP

namespace Fanout.CommandLine.Machine

def toAddress (ip : Ip) (port : UInt16) : Std.Net.SocketAddress :=
  match ip with
  | .v4 a b c d => .v4 ⟨.ofParts a b c d, port⟩
  | .v6 a b c d e f g h => .v6 ⟨.ofParts a b c d e f g h, port⟩

def ofAddress : Std.Net.SocketAddress → SocketAddress
  | .v4 ⟨⟨o⟩, port⟩ => { ip := .v4 o[0] o[1] o[2] o[3], port }
  | .v6 ⟨⟨s⟩, port⟩ => { ip := .v6 s[0] s[1] s[2] s[3] s[4] s[5] s[6] s[7], port }

def code? : IO.Error → Option UInt32
  | .alreadyExists _ code _ | .otherError code _ | .resourceBusy code _
  | .resourceVanished code _ | .unsupportedOperation code _ | .hardwareFault code _
  | .unsatisfiedConstraints code _ | .illegalOperation code _ | .protocolError code _
  | .timeExpired code _ | .interrupted _ code _ | .noFileOrDirectory _ code _
  | .invalidArgument _ code _ | .permissionDenied _ code _ | .resourceExhausted _ code _
  | .inappropriateType _ code _ | .noSuchThing _ code _ => some code
  | .unexpectedEof | .userError _ => none

/-- The system's number of an error; some of its parts count errors below zero. -/
def number? (e : IO.Error) : Option Nat :=
  (code? e).map fun code => if code < 0x80000000 then code.toNat else (0 - code).toNat

def faultText (e : IO.Error) : String :=
  match number? e >>= SocketFault.ofNumber? with
  | some fault => fault.message
  | none => toString e

def fileError (e : IO.Error) : FileError :=
  match number? e with
  | some 13 => .denied
  | some 20 => .notDirectory
  | some 21 => .isDirectory
  | some 36 => .nameTooLong
  | _ => .notFound

def look (path : String) : IO FileReader := do
  if path.contains '\x00' then return fun _ => .error .nulInPath
  try
    let bytes ← IO.FS.readBinFile path
    return fun _ => .ok bytes.data.toList
  catch e => return fun _ => .error (fileError e)

def now : IO Nat := do
  let t ← Std.Time.Timestamp.now
  return t.toMillisecondsSinceUnixEpoch.toInt.toNat

end Fanout.CommandLine.Machine
