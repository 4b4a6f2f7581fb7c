/-!
Observers and the events they are told of. An observer is called for the messages of every address
or of one, and for the disconnection of its own address only; a client, which has one peer, tells
every observer of the disconnection.
-/

namespace Fanout

abbrev Handler :=
  Nat

inductive Event where
  | message (address : String) (payload : List UInt8)
  | disconnection (address reason : String)
  | disconnectionToAll (address reason : String)
  deriving DecidableEq, Repr

structure Observer where
  filter : Option String := none
  onMessage : Option Handler := none
  onDisconnect : Option Handler := none
  deriving DecidableEq, Repr

namespace Observer

/-- An observer of one address; the empty address means every address. -/
def forAddress (address : String) : Observer where
  filter := if address = "" then none else some address

def wantsMessageFrom (o : Observer) (address : String) : Bool :=
  match o.filter with
  | some f => f == address
  | none => true

def wantsDisconnectionOf (o : Observer) (address : String) : Bool :=
  o.filter == some address

def handler? (o : Observer) : Event → Option Handler
  | .message address _ => if o.wantsMessageFrom address then o.onMessage else none
  | .disconnection address _ => if o.wantsDisconnectionOf address then o.onDisconnect else none
  | .disconnectionToAll .. => o.onDisconnect

theorem wantsMessageFrom_iff (o : Observer) (address : String) :
    o.wantsMessageFrom address = true ↔ o.filter = none ∨ o.filter = some address := by
  unfold wantsMessageFrom
  cases o.filter <;> simp

theorem wantsDisconnectionOf_iff (o : Observer) (address : String) :
    o.wantsDisconnectionOf address = true ↔ o.filter = some address := by
  simp [wantsDisconnectionOf]

end Observer

end Fanout
