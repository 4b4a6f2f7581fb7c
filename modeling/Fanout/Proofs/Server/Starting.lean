import Fanout.Proofs.Server.Turn

namespace Fanout

/-- What the system answers to the calls that open a listening socket, in the order of the calls. -/
structure SocketCalls where
  created : Except String Unit
  reusable : Except String Unit
  bound : Except String Unit
  listening : Except String Unit
  address : Except String SocketAddress

namespace SocketCalls

def answer (o : SocketCalls) : Except String SocketAddress := do
  o.created
  o.reusable
  o.bound
  o.listening
  o.address

def Fails (o : SocketCalls) : Prop :=
  (∃ e, o.created = .error e) ∨ (∃ e, o.reusable = .error e) ∨ (∃ e, o.bound = .error e) ∨
    (∃ e, o.listening = .error e) ∨ ∃ e, o.address = .error e

theorem fails_iff (o : SocketCalls) : o.Fails ↔ ∃ e, o.answer = .error e := by
  obtain ⟨created, reusable, bound, listening, address⟩ := o
  cases created <;> cases reusable <;> cases bound <;> cases listening <;> cases address <;>
    simp [Fails, answer, bind, Except.bind]

end SocketCalls

namespace Server

variable {s : Server} {port : UInt16} {bound : Except String SocketAddress}
  {address : SocketAddress}

inductive StartsSo (s : Server) (port : UInt16) (bound : Except String SocketAddress) :
    Server → Except ServerError SocketAddress → Prop
  | config {e : ConfigError} (hv : s.config.validate = .error e) :
      StartsSo s port bound s (.error (.config e))
  | already (hv : s.config.validate = .ok ()) (hl : s.isListening = true) :
      StartsSo s port bound s (.error .alreadyStarted)
  | setup {reason : String} (hv : s.config.validate = .ok ()) (hl : s.isListening = false)
      (hb : bound = .error reason) :
      StartsSo s port bound s (.error (.setup { ip := s.config.bindAddress, port } reason))
  | opened {s' : Server} {address : SocketAddress} (hv : s.config.validate = .ok ())
      (hl : s.isListening = false) (hb : bound = .ok address) :
      StartsSo s port bound s' (.ok address)

theorem starts_so (s : Server) (port : UInt16) (autoReap : Bool)
    (bound : Except String SocketAddress) :
    StartsSo s port bound (s.start port autoReap bound).1 (s.start port autoReap bound).2 := by
  cases hv : s.config.validate with
  | error e => simpa [start, hv] using StartsSo.config hv
  | ok =>
    cases hl : s.isListening with
    | true => simpa [start, hv, hl] using StartsSo.already hv hl
    | false =>
      cases bound with
      | error reason => simpa [start, hv, hl] using StartsSo.setup hv hl rfl
      | ok address =>
        have hok : (s.start port autoReap (.ok address)).2 = .ok address := by
          cases autoReap <;> cases hr : s.reaper <;> simp [start, hv, hl, hr]
        exact hok ▸ .opened hv hl rfl

theorem start_opened {autoReap : Bool} (hv : s.config.validate = .ok ())
    (hl : s.isListening = false) (hr : s.reaper = none) :
    (s.start port autoReap (.ok address)).1 =
      if autoReap then (s.opened address).spawnReaper else s.opened address := by
  cases autoReap <;> simp [start, hv, hl, hr, opened]

end Server

end Fanout
