import Fanout.Text.Reader
import Mathlib.Algebra.Group.Nat.Defs

namespace Fanout.Text

section Run

variable {α : Type} {p : α → Bool} {xs rest : List α}

theorem takeWhile_append_stop (hxs : ∀ x ∈ xs, p x = true) (hrest : ∀ x ∈ rest.head?, p x = false) :
    (xs ++ rest).takeWhile p = xs := by
  rw [List.takeWhile_append_of_pos hxs]
  cases rest with
  | nil => exact List.append_nil xs
  | cons x rest => rw [List.takeWhile_cons_of_neg (by simpa using hrest), List.append_nil]

theorem dropWhile_append_stop (hxs : ∀ x ∈ xs, p x = true) (hrest : ∀ x ∈ rest.head?, p x = false) :
    (xs ++ rest).dropWhile p = rest := by
  rw [List.dropWhile_append_of_pos hxs]
  cases rest with
  | nil => rfl
  | cons x rest => exact List.dropWhile_cons_of_neg (by simpa using hrest)

end Run

variable {base n most : Nat} {c : Char} {rest : List Char}

def Ends (base : Nat) (rest : List Char) : Prop :=
  ∀ c ∈ rest.head?, isDigit base c = false

theorem ends_nil : Ends base [] := by simp [Ends]

theorem ends_cons (hc : isDigit base c = false) (rest : List Char) : Ends base (c :: rest) := by
  simpa [Ends] using hc

theorem isDigit_digitChar {d : Nat} (hb : base ≤ 16) (hd : d < base) :
    isDigit base (digitChar d) = true := by
  rw [isDigit, digitValue?_digitChar hb hd]
  rfl

theorem numeral_of_lt (hn : n < base) : numeral base n = [digitChar n] := by
  rw [numeral, dif_pos (.inl hn)]

theorem isDigit_of_mem_numeral (hb : 2 ≤ base) (hb' : base ≤ 16) (hc : c ∈ numeral base n) :
    isDigit base c = true := by
  induction n using Nat.strongRecOn with
  | ind n ih =>
    rw [numeral] at hc
    split at hc
    · rename_i hn
      obtain rfl := List.mem_singleton.mp hc
      exact isDigit_digitChar hb' (by omega)
    · rcases List.mem_append.mp hc with hfront | hlast
      · exact ih (n / base) (Nat.div_lt_self (by omega) (by omega)) hfront
      · obtain rfl := List.mem_singleton.mp hlast
        exact isDigit_digitChar hb' (Nat.mod_lt _ (by omega))

theorem length_numeral_le (hb : 2 ≤ base) (hm : 0 < most) (hn : n < base ^ most) :
    (numeral base n).length ≤ most := by
  induction most generalizing n with
  | zero => exact absurd hm (Nat.lt_irrefl 0)
  | succ most ih =>
    rw [numeral]
    split
    · simp
    · rename_i hlarge
      rw [Nat.pow_succ] at hn
      have hdiv : n / base < base ^ most := Nat.div_lt_of_lt_mul (Nat.mul_comm _ _ ▸ hn)
      have hpos : 0 < most := by
        refine Nat.pos_of_ne_zero fun hzero => ?_
        subst hzero
        have hzero : n / base = 0 := by simpa using hdiv
        rcases Nat.div_eq_zero_iff.mp hzero with h | h <;> omega
      simpa using ih hpos hdiv

theorem digitChar_eq_zero {d : Nat} (hd : d < 16) (h : digitChar d = '0') : d = 0 := by
  revert d
  decide

theorem head?_numeral (hb : 2 ≤ base) (hb' : base ≤ 16) (h : (numeral base n).head? = some '0') :
    n = 0 := by
  induction n using Nat.strongRecOn with
  | ind n ih =>
    rw [numeral] at h
    split at h
    · exact digitChar_eq_zero (by omega) (Option.some.inj h)
    · rw [List.head?_append, Option.or_of_isSome (by simp [numeral_ne_nil])] at h
      have hzero := ih (n / base) (Nat.div_lt_self (by omega) (by omega)) h
      rcases Nat.div_eq_zero_iff.mp hzero with h | h <;> omega

theorem readDigits_numeral (hb : 2 ≤ base) (hb' : base ≤ 16)
    (hlen : (numeral base n).length ≤ most) (hrest : Ends base rest) :
    readDigits base most (numeral base n ++ rest) = some (numeral base n, rest) := by
  have hdigits : ∀ c ∈ numeral base n, isDigit base c = true :=
    fun c hc => isDigit_of_mem_numeral hb hb' hc
  have hfits : ¬ (numeral base n = [] ∨ most < (numeral base n).length) := by
    simp [numeral_ne_nil, hlen]
  simp only [readDigits, takeWhile_append_stop hdigits hrest, dropWhile_append_stop hdigits hrest,
    if_neg hfits]

end Fanout.Text
