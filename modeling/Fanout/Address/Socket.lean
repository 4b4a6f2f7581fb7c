import Fanout.Address.Text

/-!
Socket addresses: an IP address with a port, and for IPv6 a zone. The host of a peer, by which
connections are looked up and observers filter, is the text of its canonical IP address.
-/

namespace Fanout

structure SocketAddress where
  ip : Ip
  port : UInt16
  zone : UInt32 := 0
  deriving DecidableEq, Repr

namespace SocketAddress

open Text Ip

/-- A zone of zero is not written; an IPv4 address has none. -/
def chars (a : SocketAddress) : List Char :=
  let port := ':' :: decimal a.port.toNat
  match a.ip with
  | .v4 .. => a.ip.chars ++ port
  | .v6 .. =>
      let zone := if a.zone = 0 then [] else '%' :: decimal a.zone.toNat
      '[' :: (a.ip.chars ++ zone ++ ']' :: port)

def text (a : SocketAddress) : String :=
  String.ofList a.chars

def readBelow (bound : Nat) : Reader Nat := fun cs => do
  let (ds, rest) ← readDigits 10 cs.length cs
  let n ← value? 10 ds
  if n < bound then some (n, rest) else none

def readPort : Reader UInt16 := fun cs => do
  let (_, cs) ← readChar ':' cs
  let (n, cs) ← readBelow UInt16.size cs
  some (n.toUInt16, cs)

def readZone : Reader UInt32 := fun cs =>
  match readChar '%' cs with
  | none => some (0, cs)
  | some (_, rest) => do
      let (n, rest) ← readBelow UInt32.size rest
      some (n.toUInt32, rest)

def readV4 : Reader SocketAddress := fun cs => do
  let ((a, b, c, d), cs) ← Ip.readV4 cs
  let (port, cs) ← readPort cs
  some ({ ip := .v4 a b c d, port }, cs)

def readV6 : Reader SocketAddress := fun cs => do
  let (_, cs) ← readChar '[' cs
  let (ip, cs) ← Ip.readV6 cs
  let (zone, cs) ← readZone cs
  let (_, cs) ← readChar ']' cs
  let (port, cs) ← readPort cs
  some ({ ip, port, zone }, cs)

def ofText? (s : String) : Option SocketAddress :=
  match (readV4 s.toList).orElse fun _ => readV6 s.toList with
  | some (a, []) => some a
  | _ => none

def host (a : SocketAddress) : String :=
  a.ip.canonical.text

end SocketAddress

end Fanout
