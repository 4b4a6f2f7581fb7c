namespace Fanout

inductive SocketFault where
  | addressInUse
  | addressNotAvailable
  | brokenPipe
  | connectionRefused
  | connectionReset
  | invalidArgument
  | networkUnreachable
  | notConnected
  deriving DecidableEq, Repr

namespace SocketFault

def number : SocketFault → Nat
  | .invalidArgument => 22
  | .brokenPipe => 32
  | .addressInUse => 98
  | .addressNotAvailable => 99
  | .networkUnreachable => 101
  | .connectionReset => 104
  | .notConnected => 107
  | .connectionRefused => 111

def title : SocketFault → String
  | .addressInUse => "Address already in use"
  | .addressNotAvailable => "Cannot assign requested address"
  | .brokenPipe => "Broken pipe"
  | .connectionRefused => "Connection refused"
  | .connectionReset => "Connection reset by peer"
  | .invalidArgument => "Invalid argument"
  | .networkUnreachable => "Network is unreachable"
  | .notConnected => "Transport endpoint is not connected"

def message (f : SocketFault) : String :=
  f.title ++ " (os error " ++ toString f.number ++ ")"

def all : List SocketFault :=
  [.addressInUse, .addressNotAvailable, .brokenPipe, .connectionRefused, .connectionReset,
    .invalidArgument, .networkUnreachable, .notConnected]

def ofNumber? (n : Nat) : Option SocketFault :=
  all.find? fun f => f.number == n

end SocketFault

end Fanout
