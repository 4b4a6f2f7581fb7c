/-!
Numerals in a base from two to sixteen, most significant digit first, with lower-case letters for
the digits above nine. Reading accepts letters of either case; `value_numeral` says that it gives
back the number that was written.
-/

namespace Fanout.Text

def digitChar (d : Nat) : Char :=
  if d < 10 then Char.ofNat (48 + d) else Char.ofNat (87 + d)

def digitValue? (base : Nat) (c : Char) : Option Nat :=
  let n := c.toNat
  let d :=
    if 48 ≤ n ∧ n ≤ 57 then some (n - 48)
    else if 97 ≤ n ∧ n ≤ 102 then some (n - 87)
    else if 65 ≤ n ∧ n ≤ 70 then some (n - 55)
    else none
  d.filter (· < base)

def isDigit (base : Nat) (c : Char) : Bool :=
  (digitValue? base c).isSome

def numeral (base n : Nat) : List Char :=
  if _h : n < base ∨ base < 2 then [digitChar n]
  else numeral base (n / base) ++ [digitChar (n % base)]
termination_by n
decreasing_by exact Nat.div_lt_self (by omega) (by omega)

def valueFrom (base : Nat) : Nat → List Char → Option Nat
  | acc, [] => some acc
  | acc, c :: cs =>
      match digitValue? base c with
      | none => none
      | some d => valueFrom base (acc * base + d) cs

/-- The number that a non-empty list of digits denotes; leading zeros are allowed. -/
def value? (base : Nat) : List Char → Option Nat
  | [] => none
  | cs => valueFrom base 0 cs

theorem digitValue?_digitChar {base d : Nat} (hb : base ≤ 16) (hd : d < base) :
    digitValue? base (digitChar d) = some d := by
  have h : ∀ d < 16, ∀ b ≤ 16, d < b → digitValue? b (digitChar d) = some d := by decide
  exact h d (by omega) base hb hd

theorem valueFrom_append (base acc : Nat) (xs ys : List Char) :
    valueFrom base acc (xs ++ ys) = (valueFrom base acc xs).bind (valueFrom base · ys) := by
  induction xs generalizing acc with
  | nil => rfl
  | cons x xs ih =>
      simp only [List.cons_append, valueFrom]
      cases digitValue? base x with
      | none => rfl
      | some d => exact ih _

theorem numeral_ne_nil (base n : Nat) : numeral base n ≠ [] := by
  rw [numeral]; split <;> simp

theorem valueFrom_numeral {base : Nat} (hb : 2 ≤ base) (hb' : base ≤ 16) (n : Nat) :
    valueFrom base 0 (numeral base n) = some n := by
  induction n using Nat.strongRecOn with
  | _ n ih =>
      rw [numeral]
      split
      · rename_i h
        have hn : n < base := by omega
        simp [valueFrom, digitValue?_digitChar hb' hn]
      · rename_i h
        have hlt : n / base < n := Nat.div_lt_self (by omega) (by omega)
        rw [valueFrom_append, ih _ hlt]
        have hm : n % base < base := Nat.mod_lt _ (by omega)
        simp [valueFrom, digitValue?_digitChar hb' hm, Nat.div_add_mod']

theorem value_numeral {base : Nat} (hb : 2 ≤ base) (hb' : base ≤ 16) (n : Nat) :
    value? base (numeral base n) = some n := by
  have h := numeral_ne_nil base n
  cases hn : numeral base n with
  | nil => exact absurd hn h
  | cons c cs =>
      simp only [value?]
      rw [← hn]
      exact valueFrom_numeral hb hb' n

def decimal (n : Nat) : List Char :=
  numeral 10 n

def decimalPadded (width n : Nat) : List Char :=
  let ds := decimal n
  List.replicate (width - ds.length) '0' ++ ds

def hexByte (b : UInt8) : List Char :=
  [digitChar (b.toNat / 16), digitChar (b.toNat % 16)]

def hexBytes (bs : List UInt8) : List Char :=
  bs.flatMap hexByte

end Fanout.Text
