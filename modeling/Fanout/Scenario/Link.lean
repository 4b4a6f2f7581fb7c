import Fanout.Connection.Basic

/-!
Links between sockets of one machine. A link is a pair of pipes. A pipe holds the bytes that its
writer has written and its reader has not read; a writer finds out that the reader is gone only
after it has written to it once more.
-/

namespace Fanout

inductive PipeReader where
  | present
  | gone
  | refusing
  deriving DecidableEq, Repr

structure Pipe where
  waiting : List UInt8 := []
  ending : Option StreamEnd := none
  reader : PipeReader := .present
  deriving DecidableEq, Repr

namespace Pipe

def capacity : Nat :=
  4194304

def room (p : Pipe) : Nat :=
  match p.reader with
  | .present => capacity - p.waiting.length
  | .gone => capacity
  | .refusing => 0

def write (p : Pipe) (bytes : List UInt8) : Pipe :=
  match p.reader with
  | .present => { p with waiting := p.waiting ++ bytes }
  | .gone => { p with reader := .refusing }
  | .refusing => p

def finish (p : Pipe) : Pipe :=
  { p with ending := p.ending.or (some .finished) }

def reset (p : Pipe) : Pipe :=
  { p with ending := some (.failed SocketFault.connectionReset.message) }

/-- The reader closes its socket; if bytes are left unread the writer is told at once. -/
def leave (p : Pipe) (unread : Bool) : Pipe :=
  { p with waiting := [], reader := if unread then .refusing else .gone }

def drain (p : Pipe) : Pipe :=
  { p with waiting := [] }

end Pipe

inductive Holder where
  | connection (party connection : Nat)
  | peer (number : Nat)
  | queue
  deriving DecidableEq, Repr

inductive Side where
  | caller
  | callee
  deriving DecidableEq, Repr

structure Link where
  caller : Holder
  callee : Holder
  origin : SocketAddress
  target : SocketAddress
  there : Pipe := {}
  back : Pipe := {}
  deriving DecidableEq, Repr

namespace Link

def holder (l : Link) : Side → Holder
  | .caller => l.caller
  | .callee => l.callee

def outgoing (l : Link) : Side → Pipe
  | .caller => l.there
  | .callee => l.back

def incoming (l : Link) : Side → Pipe
  | .caller => l.back
  | .callee => l.there

def setOutgoing (l : Link) (p : Pipe) : Side → Link
  | .caller => { l with there := p }
  | .callee => { l with back := p }

def setIncoming (l : Link) (p : Pipe) : Side → Link
  | .caller => { l with back := p }
  | .callee => { l with there := p }

def isUnread (l : Link) (side : Side) : Bool :=
  !(l.incoming side).waiting.isEmpty

/-- A side closes its socket. Bytes that it has not read turn the close into a reset. -/
def close (l : Link) (side : Side) (unread : Bool) : Link :=
  let out := l.outgoing side
  let out := if unread && out.ending.isNone then out.reset else out.finish
  (l.setOutgoing out side).setIncoming ((l.incoming side).leave unread) side

def reset (l : Link) (side : Side) : Link :=
  (l.setOutgoing (l.outgoing side).reset side).setIncoming ((l.incoming side).leave true) side

end Link

end Fanout
