import Mathlib.Data.List.TakeWhile
import Fanout.Proofs.Address.Reading

namespace Fanout.Ip

open Text

variable {a b c d e f g h : UInt16} {gs : List UInt16} {rest : List Char}

theorem zeroRun_split (gs : List UInt16) :
    ∃ after, gs = List.replicate (zeroRun gs) 0 ++ after := by
  refine ⟨gs.dropWhile (· == 0), ?_⟩
  have hzeros : gs.takeWhile (· == 0) = List.replicate (zeroRun gs) 0 := by
    refine List.eq_replicate_iff.mpr ⟨rfl, fun g hg => ?_⟩
    simpa using List.mem_takeWhile_imp hg
  rw [← hzeros, List.takeWhile_append_dropWhile]

theorem longestZeroRun_split (gs : List UInt16) (i : Nat) :
    ∃ before after, gs = before ++ List.replicate (longestZeroRun i gs).2 0 ++ after ∧
      (longestZeroRun i gs).1 = i + before.length := by
  induction gs generalizing i with
  | nil => exact ⟨[], [], rfl, rfl⟩
  | cons g gs ih =>
    simp only [longestZeroRun]
    split
    · obtain ⟨before, after, hgs, hstart⟩ := ih (i + 1)
      refine ⟨g :: before, after, congrArg (g :: ·) hgs, ?_⟩
      rw [hstart, List.length_cons, Nat.add_right_comm, Nat.add_assoc]
    · obtain ⟨after, hgs⟩ := zeroRun_split (g :: gs)
      exact ⟨[], after, hgs, rfl⟩

theorem compressed_cases (gs : List UInt16) :
    compressed gs = groupsText gs ∨ ∃ before after zeros, 2 ≤ zeros ∧
      gs = before ++ List.replicate zeros 0 ++ after ∧
      compressed gs = groupsText before ++ ':' :: ':' :: groupsText after := by
  obtain ⟨before, after, hgs, hstart⟩ := longestZeroRun_split gs 0
  by_cases hrun : 2 ≤ (longestZeroRun 0 gs).2
  · refine .inr ⟨before, after, _, hrun, hgs, ?_⟩
    simp only [compressed, if_pos hrun]
    generalize hzeros : (longestZeroRun 0 gs).2 = zeros at hgs
    rw [hstart, Nat.zero_add, hgs]
    simp
  · exact .inl (by simp only [compressed, if_neg hrun])

theorem mapped?_eq_some {ip : Ip} (hm : (v6 a b c d e f g h).mapped? = some ip) :
    v6 a b c d e f g h = v6 0 0 0 0 0 0xffff g h ∧
      ip = v4 (octets g).1 (octets g).2 (octets h).1 (octets h).2 := by
  simp only [mapped?] at hm
  split at hm
  · rename_i hzero
    obtain ⟨rfl, rfl, rfl, rfl, rfl, rfl⟩ := hzero
    exact ⟨rfl, (Option.some.inj hm).symm⟩
  · cases hm

theorem numeral_ffff : numeral 16 (0xffff : UInt16).toNat = "ffff".toList := by
  decide +kernel

theorem readV6_full {cs : List Char} (hlen : gs.length = 8)
    (hread : readGroups 8 true cs = (gs, false, rest)) :
    readV6 cs = (ofGroups? gs).map (·, rest) := by
  simp only [readV6, hread, if_pos hlen]
  exact Option.map_eq_bind.symm

theorem readV6_gap {cs after : List Char} {head tail : List UInt16} {embedded : Bool}
    (hhead : readGroups 8 true cs = (head, false, ':' :: ':' :: rest)) (hshort : head.length < 8)
    (htail : readGroups (7 - head.length) true rest = (tail, embedded, after)) :
    readV6 cs =
      (ofGroups? (head ++ List.replicate (8 - head.length - tail.length) 0 ++ tail)).map
        (·, after) := by
  simp [readV6, hhead, Nat.ne_of_lt hshort, readChar_cons, htail]
  exact Option.map_eq_bind.symm

theorem readV6_mapped (w x y z : UInt8) :
    readV6 ("::ffff:".toList ++ octetsText w x y z) =
      some (v6 0 0 0 0 0 0xffff (groupOf w x) (groupOf y z), []) := by
  have hhead : readGroups 8 true ("::ffff:".toList ++ octetsText w x y z) =
      ([], false, "::ffff:".toList ++ octetsText w x y z) :=
    readGroups_stops 8 true (.gap _)
  have hoctets : separated false readV4 (':' :: octetsText w x y z) = some ((w, x, y, z), []) := by
    simpa [separated, readChar_cons] using readV4_octetsText ends_nil
  have htail : readGroups 7 true ("ffff".toList ++ ':' :: octetsText w x y z) =
      ([0xffff, groupOf w x, groupOf y z], true, []) := by
    rw [← numeral_ffff]
    exact readGroups_group (readV4_numeral _ (.inr ⟨_, rfl⟩))
      (readGroup_numeral _ (ends_cons not_digit_colon _))
      (readGroups_embedded (by decide) hoctets)
  exact readV6_gap hhead (by decide) htail

theorem readV6_compressed (hlen : gs.length = 8) :
    readV6 (compressed gs) = (ofGroups? gs).map (·, []) := by
  rcases compressed_cases gs with htext | ⟨before, after, zeros, hzeros, rfl, htext⟩
  · have hread := readGroups_groupsText (Nat.le_of_eq hlen) .nil
    rw [htext]
    rw [List.append_nil] at hread
    exact readV6_full hlen hread
  · simp only [List.length_append, List.length_replicate] at hlen
    have hhead : readGroups 8 true (groupsText before ++ ':' :: ':' :: groupsText after) =
        (before, false, ':' :: ':' :: groupsText after) :=
      readGroups_groupsText (by omega) (.gap _)
    have htail : readGroups (7 - before.length) true (groupsText after) = (after, false, []) := by
      have hroom : after.length ≤ 7 - before.length := by omega
      simpa using readGroups_groupsText hroom .nil
    have hcount : 8 - before.length - after.length = zeros := by omega
    rw [htext, readV6_gap hhead (by omega) htail, hcount]

theorem readV4_compressed (gs : List UInt16) : readV4 (compressed gs) = none := by
  rcases compressed_cases gs with htext | ⟨before, after, zeros, -, -, htext⟩
  · rw [htext, ← List.append_nil (groupsText gs)]
    exact readV4_groupsText gs .nil
  · rw [htext]
    exact readV4_groupsText before (.gap _)

theorem read_chars (ip : Ip) : read ip.chars = some (ip, []) := by
  cases ip with
  | v4 a b c d =>
    have hread : readV4 (octetsText a b c d) = some ((a, b, c, d), []) := by
      simpa using readV4_octetsText ends_nil
    simp only [read, chars, hread]
  | v6 a b c d e f g h =>
    cases hm : (v6 a b c d e f g h).mapped? with
    | some ip =>
      obtain ⟨hv6, rfl⟩ := mapped?_eq_some hm
      have hv4 : readV4 ("::ffff:".toList ++
          octetsText (octets g).1 (octets g).2 (octets h).1 (octets h).2) = none :=
        readV4_stops (.gap _)
      simp only [read, chars, hm, hv4, readV6_mapped, groupOf_octets]
      rw [hv6]
    | none =>
      simp only [read, chars, hm, readV4_compressed]
      exact readV6_compressed rfl

theorem ofText?_text (ip : Ip) : ofText? ip.text = some ip := by
  rw [ofText?, text, String.toList_ofList, ofChars?, read_chars]

end Fanout.Ip
