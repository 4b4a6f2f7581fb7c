import Fanout.CommandLine.Machine
import Fanout.Connection.Schedule
import Std.Async.Timer

namespace Fanout.CommandLine

open Std.Async

inductive Happening where
  | caller (socket : TCP.Socket.Client)
  | connected (socket : TCP.Socket.Client)
  | notConnected (reason : String)
  | arrived (connection : Nat) (bytes : ByteArray)
  | ended (connection : Nat) (how : StreamEnd)
  | wrote (connection call n : Nat)
  | notWritten (connection call : Nat) (reason : String)
  | line (bytes : List UInt8)
  | inputFinished
  | inputUnreadable (reason : String)
  | asked
  | woken

abbrev Post :=
  Happening → BaseIO Unit

def beside (work : Async Unit) : IO Unit := do
  let _ ← work.toIO

def wake (post : Post) (ms : Nat) : Async Unit := do
  Std.Async.sleep (.ofNat ms)
  post .woken

partial def readFrom (post : Post) (socket : TCP.Socket.Client) (size : UInt64) (c : Nat) :
    Async Unit := do
  let got ← try
      let bytes ← socket.recv? size
      pure (Except.ok bytes)
    catch e => pure (Except.error e)
  match got with
  | .ok (some bytes) =>
      post (.arrived c bytes)
      readFrom post socket size c
  | .ok none => post (.ended c .finished)
  | .error e => post (.ended c (.failed (Machine.faultText e)))

def writeTo (post : Post) (socket : TCP.Socket.Client) (c call : Nat) (bytes : List UInt8) :
    Async Unit := do
  try
    socket.send ⟨bytes.toArray⟩
    post (.wrote c call bytes.length)
  catch e => post (.notWritten c call (Machine.faultText e))

def haltAt (socket : TCP.Socket.Client) : Async Unit := do
  try socket.shutdown catch _ => return

structure Seat where
  socket : TCP.Socket.Client
  isBusy : Bool := false
  isHalted : Bool := false
  limit : Option (Nat × Nat) := none

namespace Seat

def stretch : Nat :=
  65536

def limitOf (s : Seat) (now call timeout : Nat) : Nat :=
  match s.limit with
  | some (other, time) => if other = call then time else now + timeout
  | none => now + timeout

def tendWriting (post : Post) (now c : Nat) (connection : Connection) (s : Seat) :
    IO (Seat × Option Connection.Action) := do
  match connection.writing? with
  | none => return ({ s with limit := none }, none)
  | some (call, bytes) =>
      let time := s.limitOf now call connection.settings.writeTimeoutMs.toNat
      if time ≤ now then return ({ s with limit := none }, some (.writeExpired call))
      let s := { s with limit := some (call, time) }
      if s.isBusy then return (s, none)
      beside (writeTo post s.socket c call (bytes.take stretch))
      return ({ s with isBusy := true }, none)

def tend (post : Post) (now c : Nat) (connection : Connection) (s : Seat) :
    IO (Seat × Option Connection.Action) := do
  let s ←
    if !connection.writeHalf && !s.isHalted then do
      beside (haltAt s.socket)
      pure { s with isHalted := true }
    else pure s
  s.tendWriting post now c connection

end Seat

end Fanout.CommandLine
