import Fanout.Proofs.Connection.Run
import Mathlib.Data.List.Forall2

namespace Fanout

namespace Call

def segment : Call → List UInt8
  | .send payload (.writing written) => payload.take written
  | .send payload (.done written _) => payload.take written
  | _ => []

def hadWriter : Call → Bool
  | .send _ .queued => false
  | .send _ _ => true
  | _ => false

def Settled : Call → Prop
  | .send payload (.done written none) => written = payload.length
  | .send _ (.done written (some .closed)) => written = 0
  | .send _ (.done _ (some .alreadyListening)) => False
  | _ => True

/-- What a send puts on the wire, by its payload and by what it returned. -/
inductive Puts : Call → List UInt8 → Prop
  | writing {payload segment : List UInt8} {written : Nat} (h : segment <+: payload) :
      Puts (.send payload (.writing written)) segment
  | ok {payload : List UInt8} {written : Nat} : Puts (.send payload (.done written none)) payload
  | timedOut {payload segment : List UInt8} {written : Nat} (h : segment <+: payload) :
      Puts (.send payload (.done written (some .writeTimeout))) segment
  | failed {payload segment : List UInt8} {written : Nat} {reason : String}
      (h : segment <+: payload) : Puts (.send payload (.done written (some (.io reason)))) segment
  | closed {payload : List UInt8} {written : Nat} :
      Puts (.send payload (.done written (some .closed))) []

theorem puts_segment {call : Call} (hw : call.hadWriter = true) (hs : call.Settled) :
    call.Puts call.segment := by
  match call, hs with
  | .send payload (.writing written), _ => exact .writing (List.take_prefix _ _)
  | .send payload (.done written none), hs =>
    obtain rfl : written = payload.length := hs
    rw [segment, List.take_length]
    exact .ok
  | .send payload (.done written (some .closed)), hs =>
    obtain rfl : written = 0 := hs
    exact .closed
  | .send payload (.done written (some .writeTimeout)), _ => exact .timedOut (List.take_prefix _ _)
  | .send payload (.done written (some (.io reason))), _ => exact .failed (List.take_prefix _ _)
  | .send payload .queued, _ | .listen _, _ | .close _, _ => simp [hadWriter] at hw

end Call

def segmentAt (calls : List Call) (i : Nat) : List UInt8 :=
  (calls[i]?.map Call.segment).getD []

section Segments

variable {calls : List Call} {call call' : Call} {i j : Nat} {writers : List Nat}

theorem segmentAt_eq (hi : calls[i]? = some call) : segmentAt calls i = call.segment := by
  simp [segmentAt, hi]

theorem segmentAt_concat (h : call.segment = []) (j : Nat) :
    segmentAt (calls ++ [call]) j = segmentAt calls j := by
  rcases Nat.lt_trichotomy j calls.length with hj | rfl | hj
  · simp [segmentAt, List.getElem?_append_left hj]
  · simp [segmentAt, h]
  · rw [segmentAt, segmentAt, List.getElem?_eq_none (Nat.le_of_lt hj),
      List.getElem?_eq_none (by simp; omega)]

theorem segmentAt_set (hi : calls[i]? = some call) :
    segmentAt (calls.set i call') i = call'.segment :=
  segmentAt_eq ((getElem?_set_eq_some hi).mpr (.inl ⟨rfl, rfl⟩))

theorem segmentAt_set_ne (h : j ≠ i) : segmentAt (calls.set i call') j = segmentAt calls j := by
  rw [segmentAt, segmentAt, List.getElem?_set_ne (Ne.symm h)]

theorem segmentAt_set_same (hi : calls[i]? = some call) (h : call'.segment = call.segment)
    (j : Nat) : segmentAt (calls.set i call') j = segmentAt calls j := by
  by_cases hj : j = i
  · subst hj
    rw [segmentAt_set hi, segmentAt_eq hi, h]
  · exact segmentAt_set_ne hj

theorem flatten_segments_grow {bytes : List UInt8} (hi : calls[i]? = some call)
    (hg : call'.segment = call.segment ++ bytes) (hn : writers.Nodup)
    (hl : writers.getLast? = some i) :
    (writers.map (segmentAt (calls.set i call'))).flatten =
      (writers.map (segmentAt calls)).flatten ++ bytes := by
  obtain ⟨earlier, rfl⟩ := List.getLast?_eq_some_iff.mp hl
  have hne : ∀ j ∈ earlier, j ≠ i := by
    intro j hj
    exact (List.nodup_append.mp hn).2.2 j hj i List.mem_cons_self
  have hsame : earlier.map (segmentAt (calls.set i call')) = earlier.map (segmentAt calls) :=
    List.map_congr_left fun j hj => segmentAt_set_ne (hne j hj)
  simp [hsame, segmentAt_set hi, segmentAt_eq hi, hg]

end Segments

namespace Connection

/-- The bytes on the wire are the segments of the calls that have had the writer, in that order. -/
structure Wired (c : Connection) : Prop where
  wire : c.wire = (c.writers.map (segmentAt c.calls)).flatten
  nodup : c.writers.Nodup
  mem_iff : ∀ i, i ∈ c.writers ↔ ∃ call, c.calls[i]? = some call ∧ call.hadWriter = true
  settled : ∀ {i : Nat} {call : Call}, c.calls[i]? = some call → call.Settled
  last : ∀ {i written : Nat} {payload : List UInt8},
    c.calls[i]? = some (.send payload (.writing written)) → c.writers.getLast? = some i

theorem wired_ofStream {stream : Stream} {settings : Settings} {time : Timestamp} {c : Connection}
    (h : ofStream stream settings time = .ok c) : c.Wired := by
  unfold ofStream at h
  split at h
  · exact absurd h nofun
  · obtain rfl := Except.ok.inj h
    exact ⟨rfl, .nil, by simp, by simp, by simp⟩

namespace Wired

variable {c c' : Connection} {a : Action} {i : Nat} {call call' : Call}

theorem same (h : c.Wired) (hwire : c'.wire = c.wire) (hwriters : c'.writers = c.writers)
    (hcalls : c'.calls = c.calls) : c'.Wired := by
  refine ⟨?_, ?_, ?_, ?_, ?_⟩
  · rw [hwire, hwriters, hcalls]
    exact h.wire
  · exact hwriters ▸ h.nodup
  · rw [hwriters, hcalls]
    exact h.mem_iff
  · rw [hcalls]
    exact h.settled
  · rw [hwriters, hcalls]
    exact h.last

theorem concat (h : c.Wired) (hcalls : c'.calls = c.calls ++ [call])
    (hcall : call.hadWriter = false) (hsegment : call.segment = []) (hsettled : call.Settled)
    (hwire : c'.wire = c.wire) (hwriters : c'.writers = c.writers) : c'.Wired := by
  refine ⟨?_, hwriters ▸ h.nodup, ?_, ?_, ?_⟩
  · rw [hwire, hwriters, hcalls, h.wire]
    exact congrArg List.flatten (List.map_congr_left fun j _ => (segmentAt_concat hsegment j).symm)
  · intro j
    rw [hwriters, hcalls, h.mem_iff]
    constructor
    · intro ⟨other, hj, hw⟩
      exact ⟨other, getElem?_concat_eq_some.mpr (.inr hj), hw⟩
    · intro ⟨other, hj, hw⟩
      rcases getElem?_concat_eq_some.mp hj with ⟨-, rfl⟩ | hold
      · exact absurd hw (by simp [hcall])
      · exact ⟨other, hold, hw⟩
  · intro j other hj
    rw [hcalls] at hj
    rcases getElem?_concat_eq_some.mp hj with ⟨-, rfl⟩ | hold
    · exact hsettled
    · exact h.settled hold
  · intro j written payload hj
    rw [hcalls] at hj
    rw [hwriters]
    rcases getElem?_concat_eq_some.mp hj with ⟨-, rfl⟩ | hold
    · simp [Call.hadWriter] at hcall
    · exact h.last hold

theorem settled_set (h : c.Wired) (hi : c.calls[i]? = some call) (hsettled : call'.Settled) {j : Nat}
    {other : Call} (hj : (c.calls.set i call')[j]? = some other) : other.Settled := by
  rcases (getElem?_set_eq_some hi).mp hj with ⟨-, rfl⟩ | ⟨-, hold⟩
  · exact hsettled
  · exact h.settled hold

theorem set (h : c.Wired) {bytes : List UInt8} (hi : c.calls[i]? = some call)
    (hcalls : c'.calls = c.calls.set i call') (hcall : call'.hadWriter = call.hadWriter)
    (hsettled : call'.Settled)
    (hsegments : (c.writers.map (segmentAt (c.calls.set i call'))).flatten =
      (c.writers.map (segmentAt c.calls)).flatten ++ bytes)
    (hlast : ∀ payload written, call' = .send payload (.writing written) →
      c.writers.getLast? = some i)
    (hwire : c'.wire = c.wire ++ bytes) (hwriters : c'.writers = c.writers) : c'.Wired := by
  refine ⟨?_, hwriters ▸ h.nodup, ?_, ?_, ?_⟩
  · rw [hwire, hwriters, hcalls, hsegments, h.wire]
  · intro j
    rw [hwriters, hcalls, h.mem_iff]
    constructor
    · intro ⟨other, hj, hw⟩
      by_cases hji : j = i
      · subst hji
        obtain rfl := Option.some.inj (hi.symm.trans hj)
        exact ⟨call', (getElem?_set_eq_some hi).mpr (.inl ⟨rfl, rfl⟩), hcall.trans hw⟩
      · exact ⟨other, (getElem?_set_eq_some hi).mpr (.inr ⟨hji, hj⟩), hw⟩
    · intro ⟨other, hj, hw⟩
      rcases (getElem?_set_eq_some hi).mp hj with ⟨rfl, rfl⟩ | ⟨-, hold⟩
      · exact ⟨call, hi, hcall.symm.trans hw⟩
      · exact ⟨other, hold, hw⟩
  · intro j other hj
    exact h.settled_set hi hsettled (hcalls ▸ hj)
  · intro j written payload hj
    rw [hcalls] at hj
    rw [hwriters]
    rcases (getElem?_set_eq_some hi).mp hj with ⟨rfl, hnew⟩ | ⟨-, hold⟩
    · exact hlast _ _ hnew.symm
    · exact h.last hold

theorem goes_on (h : c.Wired) (hi : c.calls[i]? = some call)
    (hcalls : c'.calls = c.calls.set i call') (hcall : call'.hadWriter = call.hadWriter)
    (hsegment : call'.segment = call.segment) (hsettled : call'.Settled)
    (hw : ∀ payload written, call' ≠ .send payload (.writing written))
    (hwire : c'.wire = c.wire) (hwriters : c'.writers = c.writers) : c'.Wired := by
  have hsegments : c.writers.map (segmentAt (c.calls.set i call')) =
      c.writers.map (segmentAt c.calls) :=
    List.map_congr_left fun j _ => segmentAt_set_same hi hsegment j
  refine h.set hi hcalls hcall hsettled (by rw [hsegments, List.append_nil]) ?_
    (hwire.trans (List.append_nil _).symm) hwriters
  exact fun payload written hnew => absurd hnew (hw payload written)

theorem puts (h : c.Wired) {n written : Nat} {payload : List UInt8}
    (hi : c.calls[i]? = some (.send payload (.writing written)))
    (hcalls : c'.calls = c.calls.set i call') (hcall : call'.hadWriter = true)
    (hsegment : call'.segment = payload.take (written + n)) (hsettled : call'.Settled)
    (hwire : c'.wire = c.wire ++ (payload.drop written).take n)
    (hwriters : c'.writers = c.writers) : c'.Wired := by
  refine h.set hi hcalls hcall hsettled ?_ (fun _ _ _ => h.last hi) hwire hwriters
  exact flatten_segments_grow hi (hsegment.trans List.take_add) h.nodup (h.last hi)

theorem obtains (h : c.Wired) (hs : c.Sound) {payload : List UInt8}
    (hi : c.calls[i]? = some (.send payload .queued)) (held : c.writing.isHeldBy i = true)
    (hcalls : c'.calls = c.calls.set i call') (hcall : call'.hadWriter = true)
    (hsegment : call'.segment = []) (hsettled : call'.Settled) (hwire : c'.wire = c.wire)
    (hwriters : c'.writers = c.writers ++ [i]) : c'.Wired := by
  have hfresh : i ∉ c.writers := by
    rw [h.mem_iff]
    rintro ⟨call, hcall, hw⟩
    obtain rfl := Option.some.inj (hi.symm.trans hcall)
    simp [Call.hadWriter] at hw
  have alone {j written : Nat} {other : List UInt8}
      (hj : c.calls[j]? = some (.send other (.writing written))) : False := by
    have hheld := hs.writing.held j (by simp [hj, Call.writingStanding])
    obtain rfl := Lock.isHeldBy_unique held hheld
    simp [hi] at hj
  refine ⟨?_, ?_, ?_, ?_, ?_⟩
  · have hsame : c.writers.map (segmentAt c'.calls) = c.writers.map (segmentAt c.calls) := by
      rw [hcalls]
      exact List.map_congr_left fun j _ => segmentAt_set_same hi hsegment j
    have hnew : segmentAt c'.calls i = [] := by rw [hcalls, segmentAt_set hi, hsegment]
    simp only [hwire, hwriters, List.map_append, List.flatten_append, hsame, h.wire, List.map_cons,
      List.map_nil, hnew, List.flatten_cons, List.flatten_nil, List.append_nil]
  · rw [hwriters]
    exact List.nodup_append.mpr ⟨h.nodup, by simp, by
      intro j hj k hk
      rw [List.mem_singleton.mp hk]
      rintro rfl
      exact hfresh hj⟩
  · intro j
    rw [hwriters, hcalls, List.mem_append, List.mem_singleton, h.mem_iff]
    constructor
    · rintro (⟨call, hj, hw⟩ | rfl)
      · refine ⟨call, (getElem?_set_eq_some hi).mpr (.inr ⟨?_, hj⟩), hw⟩
        rintro rfl
        exact hfresh ((h.mem_iff j).mpr ⟨call, hj, hw⟩)
      · exact ⟨call', (getElem?_set_eq_some hi).mpr (.inl ⟨rfl, rfl⟩), hcall⟩
    · rintro ⟨call, hj, hw⟩
      rcases (getElem?_set_eq_some hi).mp hj with ⟨rfl, -⟩ | ⟨-, hold⟩
      · exact .inr rfl
      · exact .inl ⟨call, hold, hw⟩
  · intro j other hj
    exact h.settled_set hi hsettled (hcalls ▸ hj)
  · intro j written other hj
    rw [hcalls] at hj
    rcases (getElem?_set_eq_some hi).mp hj with ⟨rfl, -⟩ | ⟨-, hold⟩
    · rw [hwriters, List.getLast?_concat]
    · exact (alone hold).elim

theorem turn (h : c.Wired) (hs : c.Sound) (ht : Turn c a c') : c'.Wired := by
  cases ht with
  | refuse | strand | listen | send | close => exact h.concat rfl rfl rfl trivial rfl rfl
  | turnAway hi held | sendNothing hi held => exact h.obtains hs hi held rfl rfl rfl rfl rfl rfl
  | startWriting hi held => exact h.obtains hs hi held rfl rfl rfl trivial rfl rfl
  | write hi => exact h.puts hi rfl rfl rfl trivial rfl rfl
  | finishWriting hi hn heq => exact h.puts hi rfl rfl rfl heq rfl rfl
  | failWrite _ hi | writeExpired hi =>
    exact h.goes_on hi rfl rfl rfl trivial nofun rfl rfl
  | obtainClosing hi | halt _ hi | finishClose hi =>
    exact h.goes_on hi rfl rfl rfl trivial nofun rfl rfl
  | look | quit | deliver | unwind | hangUp | wait | arrive | finish => exact h.same rfl rfl rfl

end Wired

theorem wired_of_reachable {c : Connection} (h : Reachable c) : c.Wired := by
  induction h with
  | opened h => exact wired_ofStream h
  | step tell a hr hs ih => exact ih.turn (sound_of_reachable hr) (turn_of_step hs)

theorem Wired.segments {c : Connection} (h : c.Wired) :
    ∃ segments : List (List UInt8), c.wire = segments.flatten ∧
      List.Forall₂ (fun i segment => ∃ call, c.calls[i]? = some call ∧ call.Puts segment)
        c.writers segments := by
  refine ⟨_, h.wire, List.forall₂_map_right_iff.mpr (List.forall₂_same.mpr ?_)⟩
  intro i hi
  obtain ⟨call, hcall, hw⟩ := (h.mem_iff i).mp hi
  exact ⟨call, hcall, segmentAt_eq hcall ▸ Call.puts_segment hw (h.settled hcall)⟩

end Connection

end Fanout
