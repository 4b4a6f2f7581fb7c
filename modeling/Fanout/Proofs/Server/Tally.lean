import Fanout.Proofs.Connection.Lifecycle
import Fanout.Proofs.Server.Run

namespace Fanout

theorem countP_range_succ (p : Nat → Bool) (n : Nat) :
    (List.range (n + 1)).countP p = (List.range n).countP p + (p n).toNat := by
  rw [List.range_succ, List.countP_append]
  cases h : p n <;> simp [h]

theorem countP_range_congr {p q : Nat → Bool} {n : Nat} (h : ∀ i, i < n → q i = p i) :
    (List.range n).countP q = (List.range n).countP p := by
  refine List.countP_congr fun i hi => ?_
  rw [h i (List.mem_range.mp hi)]

theorem countP_range_update {p q : Nat → Bool} {n i : Nat} (hi : i < n)
    (h : ∀ j, j ≠ i → q j = p j) :
    (List.range n).countP q + (p i).toNat = (List.range n).countP p + (q i).toNat := by
  induction n with
  | zero => omega
  | succ n ih =>
    rw [countP_range_succ, countP_range_succ]
    by_cases hin : i = n
    · subst hin
      have hsame : (List.range i).countP q = (List.range i).countP p :=
        countP_range_congr fun j hj => h j (Nat.ne_of_lt hj)
      omega
    · have hn := h n (Ne.symm hin)
      have hlt := ih (by omega)
      rw [hn]
      omega

def Job.registering? : Job → Option Nat
  | .register _ c => some c
  | _ => none

namespace Server

def isRegistering (s : Server) (c : Nat) : Bool :=
  s.tasks.any fun job => job.registering? == some c

/-- An accept has put the connection on the count, whether or not it could then keep it. -/
def isCounted (s : Server) (c : Nat) : Bool :=
  decide (c < s.connections.length) && !s.isRegistering c

def isCountedLive (s : Server) (c : Nat) : Bool :=
  s.isCounted c && s.isConnected c

def tally (s : Server) : Nat :=
  (List.range s.connections.length).countP s.isCountedLive

structure Tallied (s : Server) : Prop where
  live : s.live = s.tally
  balance : s.live + s.feed.raised.countP (fun e => e.signal.isDisconnection) =
    (List.range s.connections.length).countP s.isCounted
  told : ∀ {c : Nat} {x : Connection}, s.connections[c]? = some x →
    (s.feed.raised.filter fun e => e.connection == c).map Raised.signal = x.signals
  known : ∀ e ∈ s.feed.raised, e.connection < s.connections.length

variable {behaviour : Behaviour} {s s' s₁ : Server} {t c : Nat} {job job' : Job}
  {x x' : Connection}

theorem isRegistering_iff :
    s.isRegistering c = true ↔ ∃ t l : Nat, s.tasks[t]? = some (.register l c) := by
  simp only [isRegistering, List.any_eq_true, beq_iff_eq]
  constructor
  · intro ⟨job, hm, hj⟩
    obtain ⟨t, ht⟩ := List.mem_iff_getElem?.mp hm
    match job, hj with
    | .register l _, rfl => exact ⟨t, l, ht⟩
  · intro ⟨t, l, ht⟩
    exact ⟨_, List.mem_of_getElem? ht, rfl⟩

theorem tallied_new (config : ServerConfig) : Tallied { config } where
  live := rfl
  balance := rfl
  told := by simp
  known := by simp

def face (x : Connection) : List Signal × Bool :=
  (x.signals, x.isConnected)

theorem face_call {a : Connection.Action} (ht : Connection.Turn x a x') (ha : a.isCall = true) :
    face x' = face x := by
  cases ht with
  | refuse | send | close => rfl
  | strand hp | listen _ hp =>
    simp only [face, Connection.addCall, Connection.isConnected, hp]
    rfl
  | _ => simp [Connection.Action.isCall] at ha

theorem face_at (hf : s'.connections.map face = s.connections.map face)
    (hx' : s'.connections[c]? = some x') :
    ∃ x, s.connections[c]? = some x ∧ x'.signals = x.signals := by
  have hc := congrArg (·[c]?) hf
  simp only [List.getElem?_map, hx', Option.map_some] at hc
  obtain ⟨x, hx, heq⟩ := Option.map_eq_some_iff.mp hc.symm
  exact ⟨x, hx, (congrArg Prod.fst heq).symm⟩

theorem isConnected_of_face (hf : s'.connections.map face = s.connections.map face) (c : Nat) :
    s'.isConnected c = s.isConnected c := by
  have hconn (s : Server) :
      s.isConnected c = ((s.connections.map face)[c]?.map Prod.snd).getD false := by
    simp only [isConnected, List.getElem?_map]
    cases s.connections[c]? <;> rfl
  rw [hconn, hconn, hf]

theorem Tallied.quiet (h : s.Tallied) (hf : s'.connections.map face = s.connections.map face)
    (hreg : ∀ c, s'.isRegistering c = s.isRegistering c) (hlive : s'.feed.live = s.feed.live)
    (hraised : s'.feed.raised = s.feed.raised) : s'.Tallied := by
  have hlen : s'.connections.length = s.connections.length := by
    simpa using congrArg List.length hf
  have hcounted (c : Nat) : s'.isCounted c = s.isCounted c := by
    simp only [isCounted, hlen, hreg]
  refine ⟨?_, ?_, ?_, ?_⟩
  · have htally : s'.tally = s.tally := by
      simp only [tally, hlen]
      refine countP_range_congr fun c _ => ?_
      simp only [isCountedLive, hcounted, isConnected_of_face hf]
    rw [htally, ← h.live]
    exact hlive
  · have hbalance := h.balance
    simp only [Server.live, hlive, hraised, hlen] at hbalance ⊢
    rw [hbalance]
    exact (countP_range_congr fun c _ => hcounted c).symm
  · intro c x' hx'
    obtain ⟨x, hx, hsignals⟩ := face_at hf hx'
    rw [hraised, hsignals]
    exact h.told hx
  · rw [hraised, hlen]
    exact h.known

theorem face_set (hx : s.connections[c]? = some x) (hf : face x' = face x) :
    (s.connections.set c x').map face = s.connections.map face :=
  map_set_eq face hx hf

theorem isRegistering_set (ht : s.tasks[t]? = some job) (htasks : s'.tasks = s.tasks.set t job')
    {d : Nat} (hj : job.registering? ≠ some d) (hj' : job'.registering? ≠ some d) :
    s'.isRegistering d = s.isRegistering d := by
  rw [Bool.eq_iff_iff, isRegistering_iff, isRegistering_iff, htasks]
  constructor
  · intro ⟨u, l, hu⟩
    rcases (getElem?_set_eq_some ht).mp hu with ⟨-, rfl⟩ | ⟨-, hold⟩
    · exact absurd rfl hj'
    · exact ⟨u, l, hold⟩
  · intro ⟨u, l, hu⟩
    refine ⟨u, l, (getElem?_set_eq_some ht).mpr (.inr ⟨?_, hu⟩)⟩
    rintro rfl
    obtain rfl := Option.some.inj (hu.symm.trans ht)
    exact hj rfl

theorem isRegistering_concat (hj : job.registering? = none) (htasks : s'.tasks = s.tasks ++ [job])
    (c : Nat) : s'.isRegistering c = s.isRegistering c := by
  simp [isRegistering, htasks, hj]

theorem Tallied.accept (h : s.Tallied) (hx : x.signals = [])
    (hc : s'.connections = s.connections ++ [x])
    (hnew : s'.isRegistering s.connections.length = true)
    (hreg : ∀ d, d < s.connections.length → s'.isRegistering d = s.isRegistering d)
    (hfeed : s'.feed = s.feed) : s'.Tallied := by
  have hlen : s'.connections.length = s.connections.length + 1 := by simp [hc]
  have hcounted {d : Nat} (hd : d < s.connections.length) : s'.isCounted d = s.isCounted d := by
    simp [isCounted, hlen, hreg d hd, hd, Nat.lt_succ_of_lt hd]
  have hskip : s'.isCounted s.connections.length = false := by simp [isCounted, hnew]
  have hconn {d : Nat} (hd : d < s.connections.length) : s'.isConnected d = s.isConnected d := by
    simp [isConnected, hc, List.getElem?_append_left hd]
  refine ⟨?_, ?_, ?_, ?_⟩
  · have htally : s'.tally = s.tally := by
      simp only [tally, hlen]
      rw [countP_range_succ, isCountedLive, hskip]
      refine countP_range_congr fun d hd => ?_
      simp only [isCountedLive, hcounted hd, hconn hd]
    rw [htally, ← h.live]
    simp only [Server.live, hfeed]
  · have hbalance := h.balance
    simp only [Server.live, hfeed, hlen] at hbalance ⊢
    rw [hbalance, countP_range_succ, hskip]
    exact (countP_range_congr fun d hd => hcounted hd).symm
  · intro d y hy
    rw [hc] at hy
    rcases getElem?_concat_eq_some.mp hy with ⟨rfl, rfl⟩ | hold
    · rw [hx, hfeed]
      simp only [List.map_eq_nil_iff, List.filter_eq_nil_iff]
      intro e he
      have := h.known e he
      simp only [beq_iff_eq]
      omega
    · rw [hfeed]
      exact h.told hold
  · intro e he
    rw [hfeed] at he
    have := h.known e he
    omega

theorem Tallied.count (h : s.Tallied) (hf : s'.connections.map face = s.connections.map face)
    (hconn : s.isConnected c = true) (hold : s.isRegistering c = true)
    (hnew : s'.isRegistering c = false)
    (hreg : ∀ d, d ≠ c → s'.isRegistering d = s.isRegistering d)
    (hlive : s'.feed.live = s.feed.live + 1) (hraised : s'.feed.raised = s.feed.raised) :
    s'.Tallied := by
  have hlen : s'.connections.length = s.connections.length := by
    simpa using congrArg List.length hf
  have hlt : c < s.connections.length := by
    simp only [isConnected] at hconn
    split at hconn
    · rename_i hx
      exact (List.getElem?_eq_some_iff.mp hx).1
    · exact absurd hconn Bool.false_ne_true
  have hcounted {d : Nat} (hd : d ≠ c) : s'.isCounted d = s.isCounted d := by
    simp only [isCounted, hlen, hreg d hd]
  have hbefore : s.isCounted c = false := by simp [isCounted, hold]
  have hafter : s'.isCounted c = true := by simp [isCounted, hnew, hlen, hlt]
  refine ⟨?_, ?_, ?_, ?_⟩
  · have hupdate := countP_range_update (p := s.isCountedLive) (q := s'.isCountedLive) hlt
      fun d hd => by simp only [isCountedLive, hcounted hd, isConnected_of_face hf]
    simp only [isCountedLive, hbefore, hafter, isConnected_of_face hf, hconn] at hupdate
    have := h.live
    simp only [Server.live, tally, hlen, hlive] at this ⊢
    simp at hupdate
    omega
  · have hupdate := countP_range_update (p := s.isCounted) (q := s'.isCounted) hlt
      fun d hd => hcounted hd
    have := h.balance
    simp only [hbefore, hafter, Bool.toNat_false, Bool.toNat_true] at hupdate
    simp only [Server.live, hlen, hlive, hraised] at this ⊢
    omega
  · intro d y hy
    obtain ⟨x, hx, hsignals⟩ := face_at hf hy
    rw [hraised, hsignals]
    exact h.told hx
  · rw [hraised, hlen]
    exact h.known

structure Recorded (c : Nat) (told : List (Connection × Signal)) (f f' : ServerFeed)
    (entries : List Raised) : Prop where
  raised : f'.raised = f.raised ++ entries
  signals : entries.map Raised.signal = told.map Prod.snd
  connection : ∀ e ∈ entries, e.connection = c
  live : f'.live = f.live - entries.countP (fun e => e.signal.isDisconnection)
  counts : entries.countP (fun e => e.signal.isDisconnection) ≤ 1 →
    ∀ e ∈ entries, e.signal.isDisconnection = true → e.live = f.live - 1

theorem recorded_tellAll (behaviour : Behaviour) (c : Nat) (told : List (Connection × Signal))
    (f : ServerFeed) :
    ∃ entries,
      Recorded c told f (Connection.tellAll (ServerFeed.tell behaviour c) told f) entries := by
  induction told generalizing f with
  | nil =>
    exact ⟨[], by simp [Connection.tellAll], rfl, by simp, by simp [Connection.tellAll], by simp⟩
  | cons p told ih =>
    obtain ⟨x, signal⟩ := p
    obtain ⟨entries, hraised, hsignals, hconnection, hlive, hcounts⟩ :=
      ih (ServerFeed.tell behaviour c x signal f).1
    let entry : Raised :=
      { connection := c, host := x.host, signal, live := (f.countOff signal).live }
    have hfirst : (ServerFeed.tell behaviour c x signal f).1.raised = f.raised ++ [entry] := by
      cases signal <;> rfl
    have hoff : (ServerFeed.tell behaviour c x signal f).1.live = (f.countOff signal).live := rfl
    refine ⟨entry :: entries, ?_, ?_, ?_, ?_, ?_⟩
    · rw [Connection.tellAll, hraised, hfirst]
      simp
    · simp [hsignals, entry]
    · intro e he
      rcases List.mem_cons.mp he with rfl | he
      · rfl
      · exact hconnection e he
    · rw [Connection.tellAll, hlive, hoff, List.countP_cons]
      cases signal with
      | message => simp [entry, ServerFeed.countOff, Signal.isDisconnection]
      | disconnected reason =>
        have hoff' : (f.countOff (.disconnected reason)).live = f.live - 1 := rfl
        simp only [entry, hoff', Signal.isDisconnection, if_true]
        omega
    · intro hle e he hd
      rw [List.countP_cons] at hle
      cases signal with
      | message =>
        rcases List.mem_cons.mp he with rfl | he
        · simp [entry, Signal.isDisconnection] at hd
        · exact hcounts (by omega) e he hd
      | disconnected reason =>
        have hnone : entries.countP (fun e => e.signal.isDisconnection) = 0 := by
          have hentry : entry.signal.isDisconnection = true := rfl
          rw [if_pos hentry] at hle
          omega
        rcases List.mem_cons.mp he with rfl | he
        · rfl
        · exact absurd hd (List.countP_eq_zero.mp hnone e he)

structure Reported (s s' : Server) (c : Nat) (x x' : Connection)
    (told : List (Connection × Signal)) (entries : List Raised) : Prop where
  before : s.connections[c]? = some x
  connections : s'.connections = s.connections.set c x'
  tasks : s'.tasks = s.tasks
  recorded : Recorded c told s.feed s'.feed entries
  signals : x'.signals = x.signals ++ told.map Prod.snd
  registering : s.isRegistering c = true → x'.isConnected = true
  balance : entries.countP (fun e => e.signal.isDisconnection) + x'.isConnected.toNat =
    x.isConnected.toNat

structure Disconnects (s s' : Server) (entries : List Raised) : Prop where
  raised : s'.feed.raised = s.feed.raised ++ entries
  once : ∀ e ∈ entries, e.signal.isDisconnection = true →
    s.isCounted e.connection = true ∧ s.isConnected e.connection = true ∧
      s'.isConnected e.connection = false ∧ e.live + 1 = s.live ∧ e.live = s'.tally

theorem Sound.reported {a : Connection.Action} {feed : ServerFeed} (h : s.Sound)
    (hx : s.connections[c]? = some x) (hcall : a.isCall = false)
    (hs : x.step (ServerFeed.tell behaviour c) a s.feed = some (x', feed)) :
    ∃ told entries, Reported s { s.setConnection c x' with feed } c x x' told entries := by
  have ht := Connection.turn_of_step hs
  obtain ⟨told, rfl, hsignals, -⟩ := Connection.reports_step hs
  obtain ⟨entries, hrec⟩ := recorded_tellAll behaviour c told s.feed
  refine ⟨told, entries, hx, rfl, rfl, hrec, hsignals, ?_, ?_⟩
  · intro hreg
    obtain ⟨t, l, ht'⟩ := isRegistering_iff.mp hreg
    obtain ⟨y, hy, hun⟩ := h.fits ht'
    obtain rfl := Option.some.inj (hx.symm.trans hy)
    simp [Connection.isConnected, (hun.turn (h.connections hx) ht hcall).phase]
  · have hbefore := (h.connections hx).disconnections
    have hafter := ((h.connections hx).turn ht).disconnections
    have htold : (told.map Prod.snd).countP Signal.isDisconnection =
        entries.countP (fun e => e.signal.isDisconnection) := by
      rw [← hrec.signals, List.countP_map]
      rfl
    rw [hsignals, List.countP_append, htold] at hafter
    omega

namespace Reported

variable {told : List (Connection × Signal)} {entries : List Raised}

theorem lt_length (h : Reported s s' c x x' told entries) : c < s.connections.length :=
  (List.getElem?_eq_some_iff.mp h.before).1

theorem length_eq (h : Reported s s' c x x' told entries) :
    s'.connections.length = s.connections.length := by
  simp [h.connections]

theorem isCounted_eq (h : Reported s s' c x x' told entries) (d : Nat) :
    s'.isCounted d = s.isCounted d := by
  simp only [isCounted, isRegistering, h.length_eq, h.tasks]

theorem isConnected_before (h : Reported s s' c x x' told entries) :
    s.isConnected c = x.isConnected := by
  simp [isConnected, h.before]

theorem isConnected_after (h : Reported s s' c x x' told entries) :
    s'.isConnected c = x'.isConnected := by
  simp [isConnected, h.connections, List.getElem?_set_self h.lt_length]

theorem isConnected_other (h : Reported s s' c x x' told entries) {d : Nat} (hd : d ≠ c) :
    s'.isConnected d = s.isConnected d := by
  simp only [isConnected, h.connections, List.getElem?_set_ne (Ne.symm hd)]

theorem live_eq (h : Reported s s' c x x' told entries) :
    s'.live = s.live - entries.countP (fun e => e.signal.isDisconnection) :=
  h.recorded.live

theorem isCounted_of_disconnects (h : Reported s s' c x x' told entries)
    (hpos : 0 < entries.countP fun e => e.signal.isDisconnection) : s.isCounted c = true := by
  cases hr : s.isRegistering c with
  | true =>
    have hbalance := h.balance
    have hle := Bool.toNat_le x.isConnected
    rw [h.registering hr, Bool.toNat_true] at hbalance
    omega
  | false => simp [isCounted, h.lt_length, hr]

theorem tally_eq (h : Reported s s' c x x' told entries) :
    s.tally = s'.tally + entries.countP (fun e => e.signal.isDisconnection) := by
  have hupdate := countP_range_update (p := s.isCountedLive) (q := s'.isCountedLive) h.lt_length
    fun d hd => by simp only [isCountedLive, h.isCounted_eq, h.isConnected_other hd]
  have hbalance := h.balance
  simp only [isCountedLive, h.isCounted_eq, h.isConnected_before, h.isConnected_after] at hupdate
  simp only [tally, h.length_eq]
  cases hc : s.isCounted c with
  | true =>
    simp only [hc, Bool.true_and] at hupdate
    omega
  | false =>
    have hnone : ¬ 0 < entries.countP fun e => e.signal.isDisconnection := fun hpos => by
      simp [h.isCounted_of_disconnects hpos] at hc
    simp only [hc, Bool.false_and] at hupdate
    omega

theorem tallied (h : Reported s s' c x x' told entries) (ht : s.Tallied) : s'.Tallied := by
  have htally := h.tally_eq
  have hbefore := ht.live
  have hlive := h.live_eq
  refine ⟨?_, ?_, ?_, ?_⟩
  · omega
  · have hbalance := ht.balance
    have hsame : (List.range s'.connections.length).countP s'.isCounted =
        (List.range s.connections.length).countP s.isCounted := by
      rw [h.length_eq]
      exact countP_range_congr fun d _ => h.isCounted_eq d
    rw [hsame, h.recorded.raised, List.countP_append]
    omega
  · intro d y hy
    rw [h.connections] at hy
    rw [h.recorded.raised, List.filter_append, List.map_append]
    rcases (getElem?_set_eq_some h.before).mp hy with ⟨rfl, rfl⟩ | ⟨hd, hold⟩
    · have hall : entries.filter (fun e => e.connection == d) = entries := by
        simpa using h.recorded.connection
      rw [ht.told h.before, hall, h.recorded.signals, h.signals]
    · have hnone : entries.filter (fun e => e.connection == d) = [] := by
        simp only [List.filter_eq_nil_iff, beq_iff_eq]
        intro e he hed
        exact hd (hed.symm.trans (h.recorded.connection e he))
      rw [ht.told hold, hnone, List.map_nil, List.append_nil]
  · intro e he
    rw [h.length_eq]
    rw [h.recorded.raised] at he
    rcases List.mem_append.mp he with hold | hnew
    · exact ht.known e hold
    · exact h.recorded.connection e hnew ▸ h.lt_length

theorem disconnects (h : Reported s s' c x x' told entries) (ht : s.Tallied) :
    Disconnects s s' entries := by
  refine ⟨h.recorded.raised, ?_⟩
  intro e he hd
  have hpos : 0 < entries.countP (fun e => e.signal.isDisconnection) :=
    List.countP_pos_iff.mpr ⟨e, he, hd⟩
  have hbalance := h.balance
  have hle := Bool.toNat_le x.isConnected
  have hup : x.isConnected = true := Bool.toNat_eq_one.mp (by omega)
  have hdown : x'.isConnected = false := Bool.toNat_eq_zero.mp (by omega)
  have helive : e.live = s.live - 1 := h.recorded.counts (by omega) e he hd
  have htally := h.tally_eq
  have hbefore := ht.live
  rw [h.recorded.connection e he]
  refine ⟨h.isCounted_of_disconnects hpos, ?_, ?_, ?_, ?_⟩
  · rw [h.isConnected_before, hup]
  · rw [h.isConnected_after, hdown]
  · omega
  · omega

end Reported

end Server

end Fanout
