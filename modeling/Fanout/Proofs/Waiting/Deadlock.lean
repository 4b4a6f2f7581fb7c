import Fanout.Proofs.Client.Run
import Fanout.Proofs.Client.Waiting
import Fanout.Proofs.Server.Run
import Fanout.Proofs.Server.Waiting

namespace Fanout

theorem deadlock_free {behaviour behaviour' : Behaviour} {s : Server} {k : Client}
    (hs : Server.Reachable behaviour s) (hk : Client.Reachable behaviour' k) :
    (s.scene behaviour).DeadlockFree ∧ (k.scene behaviour').DeadlockFree :=
  ⟨Server.deadlockFree_of_reachable hs, Client.deadlockFree_of_reachable hk⟩

theorem waiting_chain_is_free :
    ∃ (s : Server) (k : Client), s.WaitsFor (.task 3) (.task 0) ∧ s.WaitsFor (.task 0) (.task 2) ∧
      s.WaitsOutside (.task 2) ∧ CallWaits k.connections k.awaits (.task 2) (.task 1) ∧
      (s.scene Server.quietObservers).DeadlockFree ∧
      (k.scene Server.quietObservers).DeadlockFree := by
  have hs : Server.Reachable Server.quietObservers _ :=
    Server.reachable_of_steps
      [.start 65123 true (.ok Server.address), .begin (.accept 0), .connect 0 Server.visitor,
        .acceptPeer 1, .resume 1, .begin (.broadcast [104]), .resume 2, .on 0 (.obtainWriter 1),
        .resume 0, .begin .shutdown] (.new {}) rfl
  have hk : Client.Reachable Server.quietObservers _ :=
    Client.reachable_of_steps {}
      [.begin (.connect "127.0.0.1" 9), .connected 0 Server.visitor, .begin (.send [104]),
        .on 0 (.obtainWriter 1), .begin .close, .on 0 (.obtainClosing 2)] rfl
  obtain ⟨server, client⟩ := deadlock_free hs hk
  refine ⟨_, _, ?_, ?_, ?_, ?_, server, client⟩
  · exact .reaper rfl rfl rfl
  · exact .registry rfl rfl rfl (by decide)
  · exact .write ⟨0, 1, _, _, _, rfl, rfl, rfl⟩
  · exact .call rfl rfl (.writer (.inl rfl) rfl (by decide)) rfl

end Fanout
