import Fanout.Scenario.World

namespace Fanout

inductive Called where
  | server (party listener : Nat)
  | bare (listener : Nat)
  deriving DecidableEq, Repr

namespace World

def overlaps (a b : Ip) : Bool :=
  let a := a.canonical
  let b := b.canonical
  a == b || a == Ip.unspecifiedV6 || b == Ip.unspecifiedV6 ||
    (a.isV4 && b.isV4 && (a.isUnspecified || b.isUnspecified))

def listening (w : World) : List (Called × SocketAddress) :=
  let ofServers := w.parties.zipIdx.flatMap fun ((_, party), p) =>
    match party with
    | .server s =>
        s.listeners.zipIdx.filterMap fun (l, i) =>
          if l.released then none else some (Called.server p i, l.address)
    | _ => []
  let bare := w.listeners.zipIdx.filterMap fun (l, i) =>
    if l.isClosed then none else some (Called.bare i, l.address)
  ofServers ++ bare

/-- The address that a socket gets, or why it gets none; for port zero the system chooses one. -/
def bind (w : World) (ip : Ip) (port : UInt16) : Except SocketFault SocketAddress :=
  match w.network.bindFault? ip with
  | some fault => .error fault
  | none =>
      if port = 0 then .ok { ip, port := w.freshPort.toUInt16 }
      else if w.listening.any fun (_, a) => a.port == port && overlaps a.ip ip then
        .error .addressInUse
      else .ok { ip, port }

def usePort (w : World) (port : UInt16) : World :=
  if port.toNat = w.freshPort then { w with freshPort := w.freshPort + 1 } else w

def isChosen (w : World) (port : Nat) : Bool :=
  firstPort ≤ port && port < w.freshPort

def hears (own called : Ip) : Bool :=
  own.canonical == called.canonical || own == Ip.unspecifiedV6 ||
    (own.canonical == Ip.unspecified && called.canonical.isV4)

def listenerAt? (w : World) (target : SocketAddress) : Option (Called × SocketAddress) :=
  let heard := w.listening.filter fun (_, a) => a.port == target.port && hears a.ip target.ip
  match heard.find? fun (_, a) => a.ip.canonical == target.ip.canonical with
  | some found => some found
  | none => heard.head?

def ownAddress (target : Ip) : Ip :=
  if target.canonical.isV4 then Ip.loopback else Ip.loopbackV6

/-- A listener of the younger family sees callers of the older one by their mapped addresses. -/
def seenBy (listener : Ip) (caller : Ip) : Ip :=
  match listener with
  | .v4 .. => caller
  | .v6 .. => caller.mapped

inductive CallOutcome where
  | failed (fault : SocketFault)
  | unanswered
  | linked (link : Nat)

def call (w : World) (caller : Holder) (source? : Option Ip) (target : SocketAddress) :
    World × CallOutcome :=
  match w.network.callFault? target.ip with
  | some fault => (w, .failed fault)
  | none =>
      let source := source?.getD (ownAddress target.ip)
      match w.network.bindFault? source, w.listenerAt? target with
      | some fault, _ => (w, .failed fault)
      | none, none => (w, .failed .connectionRefused)
      | none, some (called, address) =>
          let origin : SocketAddress :=
            { ip := seenBy address.ip source, port := w.freshPort.toUInt16 }
          let n := w.links.length
          let linked := (w.usePort origin.port).addLink { caller, callee := .queue, origin, target }
          match called with
          | .server party listener =>
              ({ linked with callers := linked.callers ++ [⟨party, listener, n⟩] }, .linked n)
          | .bare i =>
              match w.listeners[i]? with
              | none => (w, .failed .connectionRefused)
              | some l =>
                  if l.isStalled then (w, .unanswered)
                  else
                    let listeners := w.listeners.set i { l with queue := l.queue ++ [n] }
                    ({ linked with listeners }, .linked n)

end World

end Fanout
