import Fanout.Connection.Step

/-!
What a connection does when it is left to itself. Its receive task and its calls go on as far as
they can without the socket, the peer or the clock; `next?` gives the next step of that kind.
-/

namespace Fanout.Connection

def receiverStep? (c : Connection) : Option Action :=
  match c.receiver with
  | .idle =>
      if c.cancelled || !c.waiting.isEmpty || c.stream.ending.isSome then some .look else none
  | .reading => some .read
  | _ => none

/-- What a call can do next. Writing is left to the socket. -/
def callStep? (c : Connection) (i : Nat) : Call → Option Action
  | .send _ .queued => if c.writing.isHeldBy i then some (.obtainWriter i) else none
  | .close .queued => if c.closing.isHeldBy i then some (.obtainClosing i) else none
  | .close .draining => if c.writing.isHeldBy i then some (.halt i .halted) else none
  | .close (.joining tookHandle _) =>
      if tookHandle && !c.receiver.hasEnded then none else some (.finishClose i)
  | _ => none

def next? (c : Connection) : Option Action :=
  match c.receiverStep? with
  | some a => some a
  | none => c.calls.zipIdx.findSome? fun (call, i) => c.callStep? i call

def unwritten? : Call → Option (List UInt8)
  | .send payload (.writing written) => some (payload.drop written)
  | _ => none

def writing? (c : Connection) : Option (Nat × List UInt8) :=
  c.calls.zipIdx.findSome? fun (call, i) => (unwritten? call).map (i, ·)

def isReceiving (c : Connection) : Bool :=
  c.receiver == .idle || c.receiver == .reading

def isReleased (c : Connection) : Bool :=
  c.readHalf == .gone && !c.writeHalf

end Fanout.Connection
