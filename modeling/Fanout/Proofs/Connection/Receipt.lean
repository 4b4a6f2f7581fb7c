import Fanout.Proofs.Connection.Closing
import Fanout.Proofs.Connection.Path

namespace Fanout.Connection

def Action.bytes : Action → List UInt8
  | .arrive bytes => bytes
  | _ => []

def arrivals (as : List Action) : List UInt8 :=
  as.flatMap Action.bytes

variable {σ : Type} {tell : Sink σ} {c c' : Connection} {a : Action} {s s' : σ}
  {payload : List UInt8}

namespace Turn

theorem arrived (ht : Turn c a c') : c'.stream.arrived = c.stream.arrived ++ a.bytes := by
  cases ht with
  | arrive => rfl
  | _ => exact (List.append_nil _).symm

theorem ending (ht : Turn c a c') {how : StreamEnd} (he : c'.stream.ending = some how) :
    c.stream.ending = some how ∨ a = .finish how := by
  cases ht with
  | finish how' =>
    obtain rfl := Option.some.inj he
    exact .inr rfl
  | _ => exact .inl he

theorem settings (ht : Turn c a c') : c'.settings = c.settings := by
  cases ht <;> rfl

end Turn

theorem arrived_steps {as : List Action} {p q : Connection × σ}
    (h : steps? tell as p = some q) :
    q.1.stream.arrived = p.1.stream.arrived ++ arrivals as ∧ q.1.settings = p.1.settings ∧
      ∀ how, q.1.stream.ending = some how → p.1.stream.ending = some how ∨ .finish how ∈ as := by
  induction as generalizing p with
  | nil =>
    obtain rfl := Option.some.inj h
    exact ⟨(List.append_nil _).symm, rfl, fun _ => .inl⟩
  | cons a as ih =>
    obtain ⟨p₁, h₁, h⟩ := Option.bind_eq_some_iff.mp h
    have ht := turn_of_step h₁
    obtain ⟨harrived, hsettings, hending⟩ := ih h
    refine ⟨?_, hsettings.trans ht.settings, ?_⟩
    · rw [harrived, ht.arrived, List.append_assoc]
      rfl
    · intro how he
      rcases hending how he with hold | hm
      · exact (ht.ending hold).imp_right fun heq => List.mem_cons.mpr (.inl heq.symm)
      · exact .inr (List.mem_cons_of_mem _ hm)

/-- The payloads, one after the other, are the part of the stream that has been read; the receive
task has found the end of the stream only where all of it has been read. -/
structure Received (c : Connection) : Prop where
  taken_le : c.taken ≤ c.stream.arrived.length
  flatten : (delivered c.signals).flatten = c.stream.arrived.take c.taken
  sized : ∀ payload ∈ delivered c.signals, 1 ≤ payload.length ∧ payload.length ≤ c.readSize
  drained : .disconnected .peerClosed ∈ c.signals →
    c.stream.ending = some .finished ∧ c.taken = c.stream.arrived.length

theorem received_ofStream {stream : Stream} {settings : Settings} {time : Timestamp}
    (h : ofStream stream settings time = .ok c) : c.Received := by
  rw [ofStream_fresh h]
  exact ⟨Nat.zero_le _, rfl, by simp [delivered], by simp⟩

theorem readSize_pos (c : Connection) : 1 ≤ c.readSize :=
  Nat.le_max_right _ _

theorem nextPayload_prefix (c : Connection) : c.nextPayload <+: c.waiting :=
  List.take_prefix _ _

theorem length_nextPayload (c : Connection) :
    c.nextPayload.length = min c.readSize (c.stream.arrived.length - c.taken) := by
  simp [nextPayload, waiting]

theorem delivered_message (signals : List Signal) (payload : List UInt8) :
    delivered (signals ++ [.message payload]) = delivered signals ++ [payload] := by
  simp [delivered, Signal.payload?]

namespace Received

theorem same (h : c.Received) (hstream : c'.stream = c.stream)
    (hsettings : c'.settings = c.settings) (htaken : c'.taken = c.taken)
    (hsignals : c'.signals = c.signals) : c'.Received := by
  refine ⟨?_, ?_, ?_, ?_⟩
  · rw [htaken, hstream]
    exact h.taken_le
  · rw [hsignals, hstream, htaken]
    exact h.flatten
  · rw [hsignals, readSize, hsettings]
    exact h.sized
  · rw [hsignals, hstream, htaken]
    exact h.drained

theorem farewell (h : c.Received) (reason : Reason)
    (hclosed : reason = .peerClosed →
      c.stream.ending = some .finished ∧ c.taken = c.stream.arrived.length) :
    Received { c with signals := c.signals ++ c.farewell reason } where
  taken_le := h.taken_le
  flatten := by
    simp only [delivered_farewell]
    exact h.flatten
  sized := by
    simp only [delivered_farewell]
    exact h.sized
  drained hm := by
    rcases List.mem_append.mp hm with hold | hnew
    · exact h.drained hold
    · refine hclosed ?_
      unfold Connection.farewell at hnew
      split at hnew
      · simp at hnew
      · exact (Signal.disconnected.inj (List.mem_singleton.mp hnew)).symm

theorem taking (h : c.Received) (hne : c.nextPayload ≠ [])
    (hopen : .disconnected .peerClosed ∉ c.signals) : (c.taking c.nextPayload).Received where
  taken_le := by
    have hle := h.taken_le
    simp only [Connection.taking, length_nextPayload]
    omega
  flatten := by
    have hpre : c.nextPayload = c.waiting.take c.nextPayload.length :=
      List.prefix_iff_eq_take.mp c.nextPayload_prefix
    simp only [Connection.taking, delivered_message, List.flatten_append, List.flatten_singleton,
      h.flatten, List.take_add]
    exact congrArg _ hpre
  sized := by
    intro payload hp
    simp only [Connection.taking, delivered_message, List.mem_append, List.mem_singleton] at hp
    rcases hp with hold | rfl
    · exact h.sized payload hold
    · refine ⟨List.length_pos_iff.mpr hne, ?_⟩
      exact Nat.le_trans (Nat.le_of_eq c.length_nextPayload) (Nat.min_le_left _ _)
  drained hm := by
    rcases List.mem_append.mp hm with hold | hnew
    · exact absurd hold hopen
    · simp at hnew

theorem turn (h : c.Received) (hs : c.Sound) (ht : Turn c a c') : c'.Received := by
  have undrained (hr : c.receiver = .reading) : .disconnected .peerClosed ∉ c.signals := by
    have hp := hs.listening_of_active (.inr hr)
    obtain ⟨payloads, ⟨-, hsignals⟩ | ⟨hd, -⟩⟩ := hs.spoken
    · simp [hsignals]
    · simp [hp] at hd
  cases ht with
  | refuse | strand | listen | send | close | turnAway | sendNothing | startWriting | write
  | finishWriting | failWrite | writeExpired | obtainClosing | halt | look | wait =>
    exact h.same rfl rfl rfl rfl
  | finishClose | quit => exact (h.farewell .closedLocally nofun).same rfl rfl rfl rfl
  | deliver hr hne => exact (h.taking hne (undrained hr)).same rfl rfl rfl rfl
  | unwind how hr hne =>
    exact ((h.taking hne (undrained hr)).farewell .aborted nofun).same rfl rfl rfl rfl
  | hangUp reason how hr hnil he =>
    refine (h.farewell reason ?_).same rfl rfl rfl rfl
    rintro rfl
    obtain ⟨hending, -⟩ := he.resolve_right (by simp)
    -- A round finds nothing to read only if nothing waits, since it could take at least one byte.
    have hlen := c.length_nextPayload
    have hsize := c.readSize_pos
    have hle := h.taken_le
    rw [hnil, List.length_nil] at hlen
    exact ⟨hending, by omega⟩
  | arrive bytes he =>
    refine ⟨?_, ?_, h.sized, ?_⟩
    · simp only [List.length_append]
      exact Nat.le_add_right_of_le h.taken_le
    · rw [h.flatten, List.take_append_of_le_length h.taken_le]
    · intro hm
      exact absurd (h.drained hm).1 (by simp [he])
  | finish how he =>
    refine ⟨h.taken_le, h.flatten, h.sized, ?_⟩
    intro hm
    exact absurd (h.drained hm).1 (by simp [he])

end Received

theorem received_run {p q : Connection × σ} (h : Run tell p q) (hp : p.1.Received)
    (hs : p.1.Sound) : q.1.Received := by
  induction h with
  | refl => exact hp
  | tail hrun hn ih =>
    obtain ⟨a, ht⟩ := hn.turn
    exact ih.turn (Run.sound hrun hs) ht

theorem received_of_reachable (h : c.Reachable) : c.Received := by
  induction h with
  | opened h => exact received_ofStream h
  | step tell a hr hs ih => exact ih.turn (sound_of_reachable hr) (turn_of_step hs)

def rounds : Receiver → Nat → List Action
  | _, 0 => []
  | .reading, n + 1 => .read :: rounds .idle n
  | _, n + 1 => .look :: .read :: rounds .idle n

/-- The pieces in which `n` reads of at most `k` bytes take a block. -/
def pieces (k n : Nat) (block : List UInt8) : List (List UInt8) :=
  (List.range n).map fun i => (block.drop (i * k)).take k

theorem pieces_succ (k n : Nat) (block : List UInt8) :
    pieces k (n + 1) block = block.take k :: pieces k n (block.drop k) := by
  simp only [pieces, List.range_succ_eq_map, List.map_cons, List.map_map, List.drop_drop,
    Function.comp_def, Nat.succ_mul, Nat.zero_mul, List.drop_zero, Nat.add_comm]

theorem length_of_mem_dropLast {k n : Nat} {block piece : List UInt8}
    (hn : n * k < block.length + k) (hm : piece ∈ (pieces k n block).dropLast) :
    piece.length = k := by
  cases n with
  | zero => simp [pieces] at hm
  | succ n =>
    rw [pieces, List.range_succ, List.map_append, List.map_singleton, List.dropLast_concat] at hm
    obtain ⟨i, hi, rfl⟩ := List.mem_map.mp hm
    have hle : (i + 1) * k ≤ n * k := Nat.mul_le_mul_right k (List.mem_range.mp hi)
    rw [Nat.succ_mul] at hn hle
    rw [List.length_take, List.length_drop]
    omega

theorem waiting_taking (c : Connection) :
    (c.taking c.nextPayload).waiting = c.waiting.drop c.readSize := by
  have hlen := c.length_nextPayload
  simp only [waiting, Connection.taking, List.drop_drop]
  by_cases hle : c.readSize ≤ c.stream.arrived.length - c.taken
  · rw [hlen, Nat.min_eq_left hle]
  · rw [List.drop_eq_nil_of_le (by omega), List.drop_eq_nil_of_le (by omega)]

theorem read_returned (hr : c.receiver = .reading) (hne : c.nextPayload ≠ [])
    (hret : ∀ x payload s, (tell x (.message payload) s).2 = .returned) (s : σ) :
    ∃ s', c.step tell .read s =
      some ({ c.taking c.nextPayload with receiver := .idle }, s') := by
  simp only [step, read, if_pos hr, if_pos hne, deliver_returned (hret _ _ _)]
  exact ⟨_, rfl⟩

theorem look_idle (hr : c.receiver = .idle) (hc : c.cancelled = false) (s : σ) :
    c.step tell .look s = some ({ c with receiver := .reading }, s) := by
  simp [step, look, hr, hc]

def Takes (tell : Sink σ) (n : Nat) (c : Connection) (s : σ) : Prop :=
  ∃ c' s', steps? tell (rounds c.receiver n) (c, s) = some (c', s') ∧
    delivered c'.signals = delivered c.signals ++ pieces c.readSize n c.waiting ∧
    c'.waiting = c.waiting.drop (n * c.readSize)

theorem takes_nothing (tell : Sink σ) (c : Connection) (s : σ) : Takes tell 0 c s :=
  ⟨c, s, by simp [rounds, steps?], by simp [pieces], by simp⟩

theorem takes_of_idle {n : Nat} (hr : c.receiver = .idle) (hc : c.cancelled = false)
    (h : Takes tell n { c with receiver := .reading } s) : Takes tell n c s := by
  cases n with
  | zero => exact takes_nothing tell c s
  | succ n =>
    obtain ⟨c', s', hsteps, hdelivered, hwaiting⟩ := h
    refine ⟨c', s', ?_, hdelivered, hwaiting⟩
    rw [hr]
    exact Option.bind_eq_some_iff.mpr ⟨_, look_idle hr hc s, hsteps⟩

theorem takes_of_reading {n : Nat} (hr : c.receiver = .reading) (hne : c.nextPayload ≠ [])
    (hret : ∀ x payload s, (tell x (.message payload) s).2 = .returned)
    (h : ∀ s, Takes tell n { c.taking c.nextPayload with receiver := .idle } s) :
    Takes tell (n + 1) c s := by
  obtain ⟨s₁, hread⟩ := read_returned hr hne hret s
  obtain ⟨c', s', hsteps, hdelivered, hwaiting⟩ := h s₁
  refine ⟨c', s', ?_, ?_, ?_⟩
  · rw [hr]
    exact Option.bind_eq_some_iff.mpr ⟨_, hread, hsteps⟩
  · have hd : delivered c'.signals = delivered (c.taking c.nextPayload).signals ++
        pieces c.readSize n (c.taking c.nextPayload).waiting := hdelivered
    rw [hd, waiting_taking, pieces_succ]
    simp [Connection.taking, delivered_message, nextPayload]
  · have hw : c'.waiting = (c.taking c.nextPayload).waiting.drop (n * c.readSize) := hwaiting
    rw [hw, waiting_taking, List.drop_drop, Nat.succ_mul, Nat.add_comm]

theorem nextPayload_ne_nil (h : c.waiting ≠ []) : c.nextPayload ≠ [] := by
  intro hnil
  rcases List.take_eq_nil_iff.mp hnil with hzero | hnone
  · have := c.readSize_pos
    omega
  · exact h hnone

theorem takes_block (hret : ∀ x payload s, (tell x (.message payload) s).2 = .returned) (n : Nat)
    (hr : c.receiver = .idle ∨ c.receiver = .reading) (hc : c.cancelled = false)
    (hn : n * c.readSize < c.waiting.length + c.readSize) : Takes tell n c s := by
  induction n generalizing c s with
  | zero => exact takes_nothing tell c s
  | succ n ih =>
    have hlt : n * c.readSize < c.waiting.length := by
      rw [Nat.succ_mul] at hn
      omega
    have hne : c.nextPayload ≠ [] :=
      nextPayload_ne_nil (List.length_pos_iff.mp (Nat.lt_of_le_of_lt (Nat.zero_le _) hlt))
    have next (s : σ) : Takes tell n { c.taking c.nextPayload with receiver := .idle } s := by
      refine ih (.inl rfl) hc ?_
      change n * c.readSize < (c.taking c.nextPayload).waiting.length + c.readSize
      rw [waiting_taking, List.length_drop]
      omega
    rcases hr with hr | hr
    · exact takes_of_idle hr hc (takes_of_reading rfl hne hret next)
    · exact takes_of_reading hr hne hret next

theorem reception_is_faithful (tell : Sink σ) {stream : Stream} {settings : Settings}
    {time : Timestamp} {c₀ c : Connection} {s₀ s : σ} {as : List Action}
    {told : List (Phase × Signal)} (opened : ofStream stream settings time = .ok c₀)
    (run : steps? (noted tell) as (c₀, s₀, []) = some (c, s, told)) :
    (heard told).flatten ++ c.waiting = stream.arrived ++ arrivals as ∧
      (∀ payload ∈ heard told,
        1 ≤ payload.length ∧ payload.length ≤ max settings.readBufferSize.toNat 1) ∧
      (∀ phase, (phase, .disconnected .peerClosed) ∈ told →
        (stream.ending = some .finished ∨ .finish .finished ∈ as) ∧
          (heard told).flatten = stream.arrived ++ arrivals as) ∧
      ((∀ x payload s, (tell x (.message payload) s).2 = .returned) →
        c.receiver = .idle ∨ c.receiver = .reading → c.cancelled = false →
          ∀ n, n * max settings.readBufferSize.toNat 1 <
              c.waiting.length + max settings.readBufferSize.toNat 1 →
            ∃ c' s' told',
              steps? (noted tell) (rounds c.receiver n) (c, s, told) = some (c', s', told') ∧
                heard told' =
                  heard told ++ pieces (max settings.readBufferSize.toNat 1) n c.waiting ∧
                c'.waiting = c.waiting.drop (n * max settings.readBufferSize.toNat 1) ∧
                ∀ piece ∈ (pieces (max settings.readBufferSize.toNat 1) n c.waiting).dropLast,
                  piece.length = max settings.readBufferSize.toNat 1) := by
  have hrun : Run (noted tell) (c₀, s₀, []) (c, s, told) := run_of_steps as run
  have hnoted : Noted c told :=
    noted_run (p := (c₀, s₀, [])) ⟨by simp [ofStream_fresh opened], by simp⟩ hrun
  have hreceived : c.Received :=
    received_run hrun (received_ofStream opened) (sound_ofStream opened)
  obtain ⟨harrived, hsettings, hending⟩ := arrived_steps run
  have hsent : c.stream.arrived = stream.arrived ++ arrivals as := by
    simpa [ofStream_fresh opened] using harrived
  have hsize : c.readSize = max settings.readBufferSize.toNat 1 := by
    rw [readSize, hsettings, ofStream_fresh opened]
  rw [heard_eq_delivered hnoted, ← hsent, ← hsize]
  refine ⟨?_, hreceived.sized, ?_, ?_⟩
  · rw [hreceived.flatten, waiting, List.take_append_drop]
  · intro phase hm
    have hsignal : .disconnected .peerClosed ∈ c.signals := by
      rw [← hnoted.signals]
      exact List.mem_map_of_mem hm
    obtain ⟨hfinished, hall⟩ := hreceived.drained hsignal
    refine ⟨?_, by rw [hreceived.flatten, hall, List.take_length]⟩
    have hend := hending _ hfinished
    rwa [ofStream_fresh opened] at hend
  · intro hret hr hc n hn
    have hret' : ∀ x payload s, (noted tell x (.message payload) s).2 = .returned :=
      fun x payload s => hret x payload s.1
    obtain ⟨c', ⟨s', told'⟩, hsteps, hdelivered, hwaiting⟩ := takes_block hret' n hr hc hn
    have hnoted' : Noted c' told' :=
      noted_run (p := (c, s, told)) hnoted (run_of_steps _ hsteps)
    refine ⟨c', s', told', hsteps, ?_, hwaiting, fun piece => length_of_mem_dropLast hn⟩
    rw [heard_eq_delivered hnoted', hdelivered]

def pair : Connection where
  stream := { peer := { ip := .loopback, port := 9 }, arrived := [1, 2, 3] }
  settings := { readBufferSize := 2 }
  connectedAt := ⟨0, 0⟩

theorem pairs_arrive_in_order :
    ∃ (c : Connection) (told : List (Phase × Signal)),
      steps? (noted deaf) [.listen, .look, .read, .arrive [4, 5]] (pair, (), []) =
        some (c, (), told) ∧
        heard told = [[1, 2]] ∧ c.waiting = [3, 4, 5] ∧
        ∃ c' s' told', steps? (noted deaf) [.look, .read, .look, .read] (c, (), told) =
            some (c', s', told') ∧
          heard told' = [[1, 2], [3, 4], [5]] := by
  have run : steps? (noted deaf) [.listen, .look, .read, .arrive [4, 5]] (pair, (), []) = _ := rfl
  have opened : ofStream pair.stream { readBufferSize := 2 } ⟨0, 0⟩ = .ok pair := rfl
  obtain ⟨-, -, -, block⟩ := reception_is_faithful deaf opened run
  obtain ⟨c', s', told', steps, payloads, -⟩ :=
    block (fun _ _ _ => rfl) (.inl rfl) rfl 2 (by decide)
  exact ⟨_, _, rfl, rfl, rfl, c', s', told', steps, payloads⟩

end Fanout.Connection
