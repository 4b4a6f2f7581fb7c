import Fanout.Config.Entry
import Fanout.Proofs.Address.RoundTrip
import Fanout.Proofs.Toml.Lines

namespace Fanout

open Text

namespace Ip

variable {c sep : Char} {xs : List (List Char)} {gs : List UInt16}

theorem mem_joinWith (hc : c ∈ joinWith sep xs) : c = sep ∨ ∃ x ∈ xs, c ∈ x := by
  fun_induction joinWith sep xs with
  | case1 => cases hc
  | case2 x => exact .inr ⟨x, List.mem_singleton_self x, hc⟩
  | case3 x y ys ih =>
    simp only [List.mem_append, List.mem_cons] at hc
    rcases hc with hx | rfl | hrest
    · exact .inr ⟨x, List.mem_cons_self, hx⟩
    · exact .inl rfl
    · exact (ih hrest).imp_right fun ⟨z, hz, hcz⟩ => ⟨z, List.mem_cons_of_mem x hz, hcz⟩

theorem bare_of_isDigit {base : Nat} (hc : isDigit base c = true) : Toml.Bare c := by
  have hrange : 48 ≤ c.toNat ∧ c.toNat ≤ 57 ∨ 97 ≤ c.toNat ∧ c.toNat ≤ 102 ∨
      65 ≤ c.toNat ∧ c.toNat ≤ 70 := by
    by_contra hout
    simp only [not_or] at hout
    simp [isDigit, digitValue?, hout] at hc
  refine ⟨?_, ?_, ?_⟩
  · simp only [Toml.isPlain, Bool.or_eq_true, Bool.and_eq_true, decide_eq_true_eq, bne_iff_ne]
    omega
  all_goals
    rintro rfl
    revert hrange
    decide

theorem bare_octetsText {w x y z : UInt8} (hc : c ∈ octetsText w x y z) : Toml.Bare c := by
  rcases mem_joinWith hc with rfl | ⟨ds, hds, hcds⟩
  · decide
  · obtain ⟨o, -, rfl⟩ := List.mem_map.mp hds
    exact bare_of_isDigit (Toml.isDigit_of_mem_decimal hcds)

theorem bare_groupsText (hc : c ∈ groupsText gs) : Toml.Bare c := by
  rcases mem_joinWith hc with rfl | ⟨ds, hds, hcds⟩
  · decide
  · obtain ⟨g, -, rfl⟩ := List.mem_map.mp hds
    exact bare_of_isDigit (isDigit_of_mem_numeral (by omega) (Nat.le_refl 16) hcds)

theorem bare_compressed (hc : c ∈ compressed gs) : Toml.Bare c := by
  rcases compressed_cases gs with htext | ⟨before, after, zeros, -, -, htext⟩
  · exact bare_groupsText (htext ▸ hc)
  · rw [htext] at hc
    simp only [List.mem_append, List.mem_cons] at hc
    rcases hc with hbefore | rfl | rfl | hafter
    · exact bare_groupsText hbefore
    · decide
    · decide
    · exact bare_groupsText hafter

theorem bare_mapping (hc : c ∈ "::ffff:".toList) : Toml.Bare c := by
  have hmark : c = ':' ∨ c = 'f' ∨ c = ':' := by simpa using hc
  rcases hmark with rfl | rfl | rfl <;> decide

theorem bare_chars {ip : Ip} (hc : c ∈ ip.chars) : Toml.Bare c := by
  cases ip with
  | v4 a b c d => exact bare_octetsText hc
  | v6 a b c d e f g h =>
    cases hm : (v6 a b c d e f g h).mapped? with
    | some ip =>
      obtain ⟨-, rfl⟩ := mapped?_eq_some hm
      simp only [chars, hm, List.mem_append] at hc
      exact hc.elim bare_mapping bare_octetsText
    | none =>
      simp only [chars, hm] at hc
      exact bare_compressed hc

theorem chars_ne_nil (ip : Ip) : ip.chars ≠ [] := by
  intro h
  have hread := read_chars ip
  rw [h] at hread
  cases hread

end Ip

namespace Entry

variable {e : Entry} {k : Kind} {cs : List Char}

def Fits : Kind → Entry → Prop
  | .number bound, .number n => n < bound
  | .flag, .flag _ => True
  | .address, .address _ => True
  | _, _ => False

def value : Entry → Toml.Value
  | .number n => .integer n
  | .flag b => .boolean b
  | .address ip => .string ip.text

theorem inRange_iff (n : Nat) : Toml.inRange n = true ↔ ¬ 2 ^ 63 - 1 < n := by
  simp only [Toml.inRange, Bool.and_eq_true, decide_eq_true_eq]
  omega

theorem chars?_eq_none_iff : e.chars? = none ↔ ∃ n, e = .number n ∧ 2 ^ 63 - 1 < n := by
  cases e with
  | number n =>
    have hnone : (number n).chars? = none ↔ ¬ Toml.inRange n = true := by
      rw [chars?]
      split <;> simp [*]
    rw [hnone, inRange_iff, not_not]
    exact ⟨fun h => ⟨n, rfl, h⟩, fun ⟨m, hm, h⟩ => number.inj hm ▸ h⟩
  | flag b => cases b <;> simp [chars?]
  | address ip => simp [chars?]

theorem denotes (h : e.chars? = some cs) : Toml.Denotes cs e.value := by
  cases e with
  | number n =>
    rw [chars?] at h
    split at h
    · rename_i hn
      obtain rfl := Option.some.inj h
      exact Toml.denotes_decimal hn
    · cases h
  | flag b =>
    cases b with
    | true =>
      obtain rfl := Option.some.inj h
      exact Toml.denotes_true
    | false =>
      obtain rfl := Option.some.inj h
      exact Toml.denotes_false
  | address ip =>
    obtain rfl := Option.some.inj h
    exact Toml.denotes_quoted (fun c hc => Ip.bare_chars hc) ip.chars_ne_nil

theorem ofValue?_value (h : e.Fits k) : ofValue? k e.value = some e := by
  cases k with
  | number bound =>
    cases e with
    | number n =>
      have hn : (0 : Int) ≤ n ∧ (n : Int) < bound := ⟨Int.natCast_nonneg n, Int.ofNat_lt.mpr h⟩
      simp [ofValue?, value, hn]
    | flag | address => exact h.elim
  | flag =>
    cases e with
    | flag b => rfl
    | number | address => exact h.elim
  | address =>
    cases e with
    | address ip => simp [ofValue?, value, Ip.ofText?_text]
    | number | flag => exact h.elim

end Entry

end Fanout
