import Fanout.CommandLine.Seat
import Fanout.CommandLine.Serving
import Fanout.Text.Lossy
import Std.Async.Signal
import Std.Sync.Channel

/-!
Runs a server on real sockets: what happens at them becomes steps of the server, and what the server
has come to is done at them.
-/

namespace Fanout.CommandLine

open Std.Async

structure ServeDesk where
  serving : Serving
  callers : List (TCP.Socket.Client × Bool) := []
  seats : Array Seat := #[]
  printed : Nat := 0
  logged : Nat := 0
  armed : Option Nat := none

namespace ServeDesk

def act (d : ServeDesk) (a : Serving.Action) : ServeDesk :=
  match d.serving.step a with
  | some serving => { d with serving }
  | none => d

def actOn (d : ServeDesk) (c : Nat) (a : Connection.Action) : ServeDesk :=
  d.act (.server (.on c a))

def free (d : ServeDesk) (c : Nat) : ServeDesk :=
  { d with seats := d.seats.modify c fun s => { s with isBusy := false } }

def take (d : ServeDesk) : Happening → IO ServeDesk
  | .caller socket => do
      let peer ← try
          let a ← socket.getPeerName
          pure (some a)
        catch _ => pure none
      let stream : Stream :=
        match peer with
        | some a => { peer := Machine.ofAddress a }
        | none =>
            { peer := { ip := .unspecified, port := 0 }
              ending := some (.failed SocketFault.connectionReset.message) }
      let d := d.act (.server (.connect 0 stream))
      return { d with callers := d.callers ++ [(socket, peer.isSome)] }
  | .arrived c bytes => return d.actOn c (.arrive bytes.data.toList)
  | .ended c how => return d.actOn c (.finish how)
  | .wrote c call n => return (d.free c).actOn c (.write call n)
  | .notWritten c call reason => return (d.free c).actOn c (.failWrite call reason)
  | .asked => return d.act .ask
  | _ => return d

def pending (d : ServeDesk) : Nat :=
  d.serving.server.listeners.foldl (fun n l => n + l.pending.length) 0

def seat (post : Post) (d : ServeDesk) : IO ServeDesk := do
  let accepted := d.callers.take (d.callers.length - d.pending)
  let mut d := { d with callers := d.callers.drop accepted.length }
  for (socket, isThere) in accepted do
    if isThere then
      let c := d.seats.size
      let size := d.serving.server.config.settings.readBufferSize
      beside (readFrom post socket (max size 1) c)
      d := { d with seats := d.seats.push { socket } }
  return d

def settle (post : Post) (now : Nat) : Nat → ServeDesk → IO ServeDesk
  | 0, d => return d
  | fuel + 1, d => do
      let mut d := { d with serving := d.serving.advanceWithin 1000000 }
      d ← seat post d
      let mut isQuiet := true
      for c in [0:d.seats.size] do
        if let some connection := d.serving.server.connections[c]? then
          if let some s := d.seats[c]? then
            let (s, action) ← s.tend post now c connection
            d := { d with seats := d.seats.set! c s }
            if let some a := action then
              d := d.actOn c a
              isQuiet := false
      if isQuiet then return d else settle post now fuel d

def report (d : ServeDesk) : IO ServeDesk := do
  let out ← IO.getStdout
  for text in d.serving.printed.drop d.printed do
    out.putStr text
  out.flush
  for (host, payload) in d.serving.received.drop d.logged do
    IO.eprintln (" INFO Received address=" ++ Text.described host ++ " bytes=" ++
      toString payload.length ++ " payload=" ++ Text.shownText payload)
  return { d with
    printed := d.serving.printed.length
    logged := d.serving.received.length }

def alarms (d : ServeDesk) : List Nat :=
  let server := d.serving.server
  server.tasks.filterMap Server.acceptAlarm? ++ server.tasks.filterMap Server.reaperAlarm? ++
    d.seats.toList.filterMap fun s => s.limit.map Prod.snd

def arm (post : Post) (now : Nat) (d : ServeDesk) : IO ServeDesk := do
  match d.alarms.min? with
  | none => return d
  | some time =>
      if d.armed.any fun t => now < t && t ≤ time then return d
      beside (wake post (time - now))
      return { d with armed := some time }

partial def run (next : IO Happening) (post : Post) (d : ServeDesk) : IO (Option RunError) := do
  let now ← Machine.now
  let d := d.act (.server (.pass (now - d.serving.server.now)))
  let d ← settle post now 1000000 d
  let d ← report d
  match d.serving.outcome? with
  | some outcome => return outcome
  | none =>
      let d ← arm post now d
      let h ← next
      let now ← Machine.now
      let d := d.act (.server (.pass (now - d.serving.server.now)))
      let d ← d.take h
      run next post d

end ServeDesk

partial def acceptFrom (post : Post) (socket : TCP.Socket.Server) : Async Unit := do
  try
    let caller ← socket.accept
    post (.caller caller)
  catch _ => return
  acceptFrom post socket

def watchSignal (post : Post) (signal : Std.Async.Signal) : Async Unit := do
  let waiter ← Std.Async.Signal.Waiter.mk signal false
  let task ← waiter.wait
  let _ ← await task
  post .asked

def listenAt (socket : TCP.Socket.Server) (c : ServerConfig) : IO (Except String SocketAddress) := do
  try
    socket.bind (Machine.toAddress c.bindAddress c.port)
    socket.listen c.backlog
    let a ← socket.getSockName
    return .ok (Machine.ofAddress a)
  catch e => return .error (Machine.faultText e)

def serve (c : ServerConfig) (echoes json : Bool) : IO (Option RunError) := do
  let socket ← TCP.Socket.Server.mk
  let bound ← listenAt socket c
  match Server.start { config := c } c.port c.autoReap bound with
  | (_, .error e) => return some (.notStarted e)
  | (server, .ok address) =>
      IO.eprintln (" INFO Server listening address=" ++ address.text ++ " backlog=" ++
        toString c.backlog.toNat ++ " auto_reap=" ++ toString c.autoReap)
      let channel ← Std.CloseableChannel.new none
      let post : Post := fun h => do
        let _ ← channel.send h
      let next : IO Happening := do
        let h ← IO.wait (← channel.recv)
        return h.getD .asked
      beside (watchSignal post .sigterm)
      beside (watchSignal post .sigint)
      beside (acceptFrom post socket)
      let failure ← ServeDesk.run next post { serving := Serving.ofServer server echoes json }
      if failure.isNone then IO.eprintln " INFO tcpbus server stopped"
      return failure

end Fanout.CommandLine
