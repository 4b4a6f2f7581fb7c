import Fanout.CommandLine.Relaying
import Fanout.CommandLine.Resolve
import Fanout.CommandLine.Seat
import Std.Sync.Channel

namespace Fanout.CommandLine

open Std.Async

structure RelayDesk where
  relay : Relay
  seats : Array Seat := #[]
  printed : Nat := 0
  armed : Option Nat := none

namespace RelayDesk

def act (d : RelayDesk) (a : Client.Action) : RelayDesk :=
  match d.relay.client.step Relay.behaviour a with
  | some client => { d with relay := { d.relay with client } }
  | none => d

def free (d : RelayDesk) (c : Nat) : RelayDesk :=
  { d with seats := d.seats.modify c fun s => { s with isBusy := false } }

def take (post : Post) (d : RelayDesk) : Happening → IO RelayDesk
  | .connected socket => do
      let peer ← try
          let a ← socket.getPeerName
          pure (some a)
        catch _ => pure none
      match peer with
      | none => return d.act (.connectFailed 0 SocketFault.notConnected.message)
      | some a =>
          let size := d.relay.client.config.settings.readBufferSize
          let d := d.act (.connected 0 { peer := Machine.ofAddress a })
          beside (readFrom post socket (max size 1) d.seats.size)
          return { d with seats := d.seats.push { socket } }
  | .notConnected reason => return d.act (.connectFailed 0 reason)
  | .arrived c bytes => return d.act (.on c (.arrive bytes.data.toList))
  | .ended c how => return d.act (.on c (.finish how))
  | .wrote c call n => return (d.free c).act (.on c (.write call n))
  | .notWritten c call reason => return (d.free c).act (.on c (.failWrite call reason))
  | .line bytes => return { d with relay := { d.relay with lines := d.relay.lines ++ [bytes] } }
  | .inputFinished => return { d with relay := { d.relay with inputEnd := some .finished } }
  | .inputUnreadable reason =>
      return { d with relay := { d.relay with inputEnd := some (.unreadable reason) } }
  | _ => return d

def settle (post : Post) (now : Nat) : Nat → RelayDesk → IO RelayDesk
  | 0, d => return d
  | fuel + 1, d => do
      let mut d := { d with relay := d.relay.advanceWithin 1000000 }
      let mut isQuiet := true
      for c in [0:d.seats.size] do
        if let some connection := d.relay.client.connections[c]? then
          if let some s := d.seats[c]? then
            let (s, action) ← s.tend post now c connection
            d := { d with seats := d.seats.set! c s }
            if let some a := action then
              d := d.act (.on c a)
              isQuiet := false
      if isQuiet then return d else settle post now fuel d

def report (d : RelayDesk) : IO RelayDesk := do
  let out ← IO.getStdout
  out.write ⟨(d.relay.printed.drop d.printed).toArray⟩
  out.flush
  return { d with printed := d.relay.printed.length }

def alarms (d : RelayDesk) : List Nat :=
  d.relay.client.alarms ++ d.seats.toList.filterMap fun s => s.limit.map Prod.snd

def arm (post : Post) (now : Nat) (d : RelayDesk) : IO RelayDesk := do
  match d.alarms.min? with
  | none => return d
  | some time =>
      if d.armed.any fun t => now < t && t ≤ time then return d
      beside (wake post (time - now))
      return { d with armed := some time }

partial def run (next : IO Happening) (post : Post) (readInput : IO Unit) (isReading : Bool)
    (d : RelayDesk) : IO (Option RunError) := do
  let now ← Machine.now
  let d := d.act (.pass (now - d.relay.client.now))
  let d ← settle post now 1000000 d
  let d ← report d
  match d.relay.outcome? with
  | some outcome => return outcome
  | none =>
      let isConnected :=
        match d.relay.point with
        | .connecting _ => false
        | _ => true
      if isConnected && !isReading then readInput
      let d ← arm post now d
      let h ← next
      let d ← d.take post h
      run next post readInput (isReading || isConnected) d

end RelayDesk

def stripReturn (line : List UInt8) : List UInt8 :=
  if line.getLast? = some 13 then line.dropLast else line

partial def readLine (input : IO.FS.Stream) (line : ByteArray) : IO (List UInt8 × Bool) := do
  let bytes ← input.read 1
  match bytes.data.toList with
  | [] => return (line.data.toList, false)
  | [10] => return (stripReturn line.data.toList, true)
  | _ => readLine input (line ++ bytes)

/-- Posts the lines of the input; what follows the last line break is a line too. -/
partial def readLines (post : Post) (input : IO.FS.Stream) : IO Unit := do
  let (line, isBroken) ← readLine input ByteArray.empty
  match line, isBroken, decodeText line with
  | [], false, _ => post .inputFinished
  | _, _, .error e => post (.inputUnreadable e.message)
  | _, true, .ok _ =>
      post (.line line)
      readLines post input
  | _, false, .ok _ =>
      post (.line line)
      post .inputFinished

def callAt (post : Post) (ip : Ip) (port : UInt16) : Async Unit := do
  try
    let socket ← TCP.Socket.Client.mk
    socket.connect (Machine.toAddress ip port)
    post (.connected socket)
  catch e => post (.notConnected (Machine.faultText e))

def relay (flags : ConnectFlags) : IO (Option RunError) := do
  let channel ← Std.CloseableChannel.new none
  let post : Post := fun h => do
    let _ ← channel.send h
  let next : IO Happening := do
    let h ← IO.wait (← channel.recv)
    return h.getD .woken
  let now ← Machine.now
  match Relay.ofFlags? flags.config flags.ip flags.port now with
  | none => return none
  | some relay =>
      match Ip.ofText? flags.ip with
      | some ip => beside (callAt post ip flags.port)
      | none =>
          post (.notConnected "failed to lookup address information: Name or service not known")
      let input ← IO.getStdin
      let readInput : IO Unit := do
        let _ ← IO.asTask (readLines post input) .dedicated
      RelayDesk.run next post readInput false { relay }

end Fanout.CommandLine
