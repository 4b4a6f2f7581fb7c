import Fanout.Address.Text
import Fanout.Proofs.Text.Numeral

namespace Fanout.Ip

open Text

variable {a b c d : UInt8} {g : UInt16} {gs : List UInt16} {room : Nat} {cs rest : List Char}

theorem not_digit_dot : isDigit 10 '.' = false := by decide

theorem not_digit_colon : isDigit 16 ':' = false := by decide

theorem not_decimal_colon : isDigit 10 ':' = false := by decide

theorem readOctet_decimal (o : UInt8) (hrest : Ends 10 rest) :
    readOctet (decimal o.toNat ++ rest) = some (o, rest) := by
  have hlt : o.toNat < 256 := o.toNat_lt
  have hlen : (decimal o.toNat).length ≤ 3 :=
    length_numeral_le (by omega) (by omega) (by omega)
  have hread : readDigits 10 3 (decimal o.toNat ++ rest) = some (decimal o.toNat, rest) :=
    readDigits_numeral (by omega) (by omega) hlen hrest
  have hvalue : value? 10 (decimal o.toNat) = some o.toNat :=
    value_numeral (by omega) (by omega) o.toNat
  have hzero : ¬ (1 < (decimal o.toNat).length ∧ (decimal o.toNat).head? = some '0') := by
    rintro ⟨hlong, hhead⟩
    rw [head?_numeral (by omega) (by omega) hhead, decimal, numeral_of_lt (by omega)] at hlong
    exact Nat.lt_irrefl 1 hlong
  have hfits : ¬ (255 < o.toNat ∨
      (1 < (decimal o.toNat).length ∧ (decimal o.toNat).head? = some '0')) := by
    rintro (hlarge | hpadded)
    · omega
    · exact hzero hpadded
  simp [readOctet, hread, hvalue, hfits]

theorem readV4_octetsText (hrest : Ends 10 rest) :
    readV4 (octetsText a b c d ++ rest) = some ((a, b, c, d), rest) := by
  have dotted (o : UInt8) (cs : List Char) :
      readOctet (decimal o.toNat ++ '.' :: cs) = some (o, '.' :: cs) :=
    readOctet_decimal o (ends_cons not_digit_dot cs)
  simp [octetsText, joinWith, readV4, dotted, readChar_cons, readOctet_decimal d hrest]

theorem readOctet_rest {o : UInt8} (h : readOctet cs = some (o, rest)) :
    rest = cs.dropWhile (isDigit 10) := by
  obtain ⟨⟨ds, after⟩, hds, h⟩ := Option.bind_eq_some_iff.mp h
  obtain ⟨n, -, h⟩ := Option.bind_eq_some_iff.mp h
  unfold readDigits at hds
  dsimp only at hds h
  split at hds
  · cases hds
  · obtain ⟨-, rfl⟩ := Prod.mk.inj (Option.some.inj hds)
    split at h
    · cases h
    · exact (Prod.mk.inj (Option.some.inj h)).2.symm

theorem readV4_eq_none (h : ∀ rest, cs.dropWhile (isDigit 10) ≠ '.' :: rest) :
    readV4 cs = none := by
  cases ho : readOctet cs with
  | none => simp [readV4, ho]
  | some p =>
    obtain ⟨o, rest⟩ := p
    obtain rfl := readOctet_rest ho
    have hdot : readChar '.' (cs.dropWhile (isDigit 10)) = none := by
      cases hcs : cs.dropWhile (isDigit 10) with
      | nil => rfl
      | cons x xs =>
        have hx : x ≠ '.' := fun hx => h xs (hx ▸ hcs)
        simp [readChar, hx]
    simp [readV4, ho, hdot]

theorem readGroup_numeral (g : UInt16) (hrest : Ends 16 rest) :
    readGroup (numeral 16 g.toNat ++ rest) = some (g, rest) := by
  have hlen : (numeral 16 g.toNat).length ≤ 4 :=
    length_numeral_le (by omega) (by omega) g.toNat_lt
  have hread : readDigits 16 4 (numeral 16 g.toNat ++ rest) = some (numeral 16 g.toNat, rest) :=
    readDigits_numeral (by omega) (Nat.le_refl 16) hlen hrest
  simp [readGroup, hread, value_numeral (by omega) (Nat.le_refl 16) g.toNat]

/-- No group and no octet follows: the text ends, or the zeros that are left out stand here. -/
inductive Stops : List Char → Prop
  | nil : Stops []
  | gap (cs : List Char) : Stops (':' :: ':' :: cs)

def furtherGroups (gs : List UInt16) : List Char :=
  gs.flatMap fun g => ':' :: numeral 16 g.toNat

theorem groupsText_cons (g : UInt16) (gs : List UInt16) :
    groupsText (g :: gs) = numeral 16 g.toNat ++ furtherGroups gs := by
  induction gs generalizing g with
  | nil => simp [groupsText, joinWith, furtherGroups]
  | cons g' gs ih =>
    have hrest : groupsText (g :: g' :: gs) =
        numeral 16 g.toNat ++ ':' :: groupsText (g' :: gs) := rfl
    rw [hrest, ih]
    simp [furtherGroups]

theorem further_cases (gs : List UInt16) (hrest : Stops rest) :
    furtherGroups gs ++ rest = [] ∨ ∃ cs, furtherGroups gs ++ rest = ':' :: cs := by
  cases gs with
  | nil =>
    cases hrest with
    | nil => exact .inl rfl
    | gap cs => exact .inr ⟨_, rfl⟩
  | cons g gs => exact .inr ⟨_, rfl⟩

theorem ends_further (gs : List UInt16) (hrest : Stops rest) :
    Ends 16 (furtherGroups gs ++ rest) := by
  rcases further_cases gs hrest with h | ⟨cs, h⟩
  · rw [h]
    exact ends_nil
  · rw [h]
    exact ends_cons not_digit_colon cs

theorem dropWhile_ne_dot {xs : List Char} (hxs : ∀ c ∈ xs, isDigit 16 c = true)
    (hrest : rest = [] ∨ ∃ cs, rest = ':' :: cs) (after : List Char) :
    (xs ++ rest).dropWhile (isDigit 10) ≠ '.' :: after := by
  induction xs with
  | nil =>
    rcases hrest with rfl | ⟨cs, rfl⟩
    · simp
    · simp [not_decimal_colon]
  | cons x xs ih =>
    intro h
    by_cases hx : isDigit 10 x = true
    · rw [List.cons_append, List.dropWhile_cons_of_pos hx] at h
      exact ih (fun c hc => hxs c (List.mem_cons_of_mem _ hc)) h
    · rw [List.cons_append, List.dropWhile_cons_of_neg hx] at h
      obtain ⟨rfl, -⟩ := List.cons.inj h
      exact absurd (hxs '.' List.mem_cons_self) (by decide)

theorem readV4_numeral (n : Nat) (hrest : rest = [] ∨ ∃ cs, rest = ':' :: cs) :
    readV4 (numeral 16 n ++ rest) = none :=
  readV4_eq_none fun after =>
    dropWhile_ne_dot (fun _ hc => isDigit_of_mem_numeral (by omega) (Nat.le_refl 16) hc) hrest after

theorem readV4_stops (hrest : Stops rest) : readV4 rest = none := by
  refine readV4_eq_none fun after => ?_
  cases hrest with
  | nil => exact nofun
  | gap cs => simp [not_decimal_colon]

theorem readV4_groupsText (gs : List UInt16) (hrest : Stops rest) :
    readV4 (groupsText gs ++ rest) = none := by
  cases gs with
  | nil => exact readV4_stops hrest
  | cons g gs =>
    rw [groupsText_cons, List.append_assoc]
    exact readV4_numeral g.toNat (further_cases gs hrest)

theorem readGroup_colon (cs : List Char) : readGroup (':' :: cs) = none := by
  simp [readGroup, readDigits, not_digit_colon]

theorem readGroup_stops (hrest : Stops rest) : readGroup rest = none := by
  cases hrest with
  | nil => rfl
  | gap cs => exact readGroup_colon _

theorem readV4_colon (cs : List Char) : readV4 (':' :: cs) = none :=
  readV4_eq_none fun after => by simp [not_decimal_colon]

theorem separated_stops {α : Type} {read : Reader α} (hrest : Stops rest)
    (hread : ∀ cs, read (':' :: cs) = none) : separated false read rest = none := by
  cases hrest with
  | nil => rfl
  | gap cs => simp [separated, readChar_cons, hread]

theorem readGroups_embedded {first : Bool} (hroom : room ≠ 0)
    (hoctets : separated first readV4 cs = some ((a, b, c, d), rest)) :
    readGroups (room + 1) first cs = ([groupOf a b, groupOf c d], true, rest) := by
  simp only [readGroups, if_neg hroom, hoctets]

theorem readGroups_group {first embedded : Bool} {after : List Char}
    (hoctets : separated first readV4 cs = none)
    (hgroup : separated first readGroup cs = some (g, rest))
    (hrest : readGroups room false rest = (gs, embedded, after)) :
    readGroups (room + 1) first cs = (g :: gs, embedded, after) := by
  simp only [readGroups, hoctets, ite_self, hgroup, hrest]

theorem readGroups_stops (room : Nat) (first : Bool) (hrest : Stops rest) :
    readGroups room first rest = ([], false, rest) := by
  cases room with
  | zero => rfl
  | succ room =>
    cases first with
    | true => simp [readGroups, separated, readV4_stops hrest, readGroup_stops hrest]
    | false =>
      simp [readGroups, separated_stops hrest readV4_colon, separated_stops hrest readGroup_colon]

theorem readGroups_further (hroom : gs.length ≤ room) (hrest : Stops rest) :
    readGroups room false (furtherGroups gs ++ rest) = (gs, false, rest) := by
  induction gs generalizing room with
  | nil => exact readGroups_stops room false hrest
  | cons g gs ih =>
    obtain ⟨room, rfl⟩ := Nat.exists_eq_succ_of_ne_zero (by simp at hroom; omega : room ≠ 0)
    have hcons : furtherGroups (g :: gs) ++ rest =
        ':' :: (numeral 16 g.toNat ++ (furtherGroups gs ++ rest)) := by simp [furtherGroups]
    rw [hcons]
    refine readGroups_group ?_ ?_ (ih (Nat.le_of_succ_le_succ hroom))
    · simpa [separated, readChar_cons] using readV4_numeral _ (further_cases gs hrest)
    · simpa [separated, readChar_cons] using readGroup_numeral g (ends_further gs hrest)

theorem readGroups_groupsText (hroom : gs.length ≤ room) (hrest : Stops rest) :
    readGroups room true (groupsText gs ++ rest) = (gs, false, rest) := by
  cases gs with
  | nil => exact readGroups_stops room true hrest
  | cons g gs =>
    obtain ⟨room, rfl⟩ := Nat.exists_eq_succ_of_ne_zero (by simp at hroom; omega : room ≠ 0)
    rw [groupsText_cons, List.append_assoc]
    exact readGroups_group (readV4_numeral _ (further_cases gs hrest))
      (readGroup_numeral g (ends_further gs hrest))
      (readGroups_further (Nat.le_of_succ_le_succ hroom) hrest)

end Fanout.Ip
