import Fanout.Address.Ip
import Fanout.SocketFault

/-!
The network of one machine, as far as its sockets notice it: the addresses that a socket can be
bound to, and those that can be called.
-/

namespace Fanout

inductive Network where
  /-- The machine can call itself and nobody else. -/
  | loopback
  /-- No interface is up. Any IPv4 address can be bound to, and nobody can be called. -/
  | unrouted
  deriving DecidableEq, Repr

namespace Ip

def isBroadcast : Ip → Bool
  | .v4 a b c d => a = 255 && b = 255 && c = 255 && d = 255
  | .v6 .. => false

def isMulticast : Ip → Bool
  | .v4 a _ _ _ => 224 ≤ a && a < 240
  | .v6 a _ _ _ _ _ _ _ => 0xff00 ≤ a

def isLinkLocal : Ip → Bool
  | .v4 .. => false
  | .v6 a _ _ _ _ _ _ _ => 0xfe80 ≤ a && a < 0xfec0

def isLoopback : Ip → Bool
  | .v4 a _ _ _ => a = 127
  | ip => ip == loopbackV6

def callable (ip : Ip) : Ip :=
  if ip.canonical == unspecified then loopback
  else if ip == unspecifiedV6 then loopbackV6
  else ip.canonical

end Ip

namespace Network

def isBindable (n : Network) : Ip → Bool
  | .v4 a b c d =>
      let ip := Ip.v4 a b c d
      match n with
      | .loopback => ip.isLoopback || ip.isUnspecified || ip.isMulticast || ip.isBroadcast
      | .unrouted => true
  | ip =>
      match n with
      | .loopback => ip.isLoopback || ip.isUnspecified
      | .unrouted => ip.isUnspecified

def bindFault? (n : Network) (ip : Ip) : Option SocketFault :=
  match ip.canonical with
  | .v4 a b c d => if n.isBindable (.v4 a b c d) then none else some .addressNotAvailable
  | ip =>
      if ip.isLinkLocal || ip.isMulticast then some .invalidArgument
      else if n.isBindable ip then none
      else some .addressNotAvailable

def callFault? (n : Network) (ip : Ip) : Option SocketFault :=
  match n, ip.canonical with
  | .loopback, ip =>
      if ip.isLoopback || ip.isUnspecified then none else some .networkUnreachable
  | .unrouted, .v4 .. => some .networkUnreachable
  | .unrouted, ip =>
      if ip.isLinkLocal then some .invalidArgument
      else if ip.isMulticast then some .networkUnreachable
      else some .addressNotAvailable

end Network

end Fanout
