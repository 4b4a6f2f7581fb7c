import Fanout.Proofs.Text.Numeral
import Fanout.Toml.Item

namespace Fanout.Toml

open Text

variable {base n acc width m : Nat} {c x : Char} {cs ds xs rest after : List Char}

theorem isDigit_of_valueFrom (h : valueFrom base acc cs = some n) :
    ∀ c ∈ cs, isDigit base c = true := by
  induction cs generalizing acc with
  | nil => exact nofun
  | cons x cs ih =>
    rw [valueFrom] at h
    cases hx : digitValue? base x with
    | none => simp [hx] at h
    | some d =>
      rw [hx] at h
      intro c hc
      rcases List.mem_cons.mp hc with rfl | hc
      · rw [isDigit, hx]
        rfl
      · exact ih h c hc

theorem isDigit_of_value? (h : value? base cs = some n) : ∀ c ∈ cs, isDigit base c = true := by
  cases cs with
  | nil => cases h
  | cons x cs => exact isDigit_of_valueFrom h

theorem readFixed_line (h : readFixed 10 width (ds ++ '\n' :: rest) = some (m, after)) :
    after = ds.drop width ++ '\n' :: rest := by
  simp only [readFixed] at h
  split at h
  · cases h
  · obtain ⟨k, hvalue, h⟩ := Option.bind_eq_some_iff.mp h
    obtain ⟨-, rfl⟩ := Prod.mk.inj (Option.some.inj h)
    have hwidth : width ≤ ds.length := by
      refine Nat.le_of_not_lt fun hlt => ?_
      obtain ⟨extra, hextra⟩ := Nat.exists_eq_add_of_lt hlt
      have hmem : '\n' ∈ (ds ++ '\n' :: rest).take width := by
        rw [hextra, List.take_append]
        simp [Nat.add_assoc]
      exact absurd (isDigit_of_value? hvalue '\n' hmem) (by decide)
    exact List.drop_append_of_le_length hwidth

theorem readChar_line (hds : ∀ d ∈ ds, isDigit 10 d = true) (hc : isDigit 10 c = false)
    (hline : c ≠ '\n') : readChar c (ds ++ '\n' :: rest) = none := by
  cases ds with
  | nil => simp [readChar, Ne.symm hline]
  | cons d ds =>
    have hd : d ≠ c := fun hd => absurd (hds d List.mem_cons_self) (by simp [hd, hc])
    simp [readChar, hd]

theorem readMoment_line (hds : ∀ d ∈ ds, isDigit 10 d = true) :
    readMoment (ds ++ '\n' :: rest) = none := by
  have hdate : readDate (ds ++ '\n' :: rest) = none := by
    cases hy : readFixed 10 4 (ds ++ '\n' :: rest) with
    | none => simp [readDate, hy]
    | some p =>
      obtain ⟨y, after⟩ := p
      obtain rfl := readFixed_line hy
      have hdash : readChar '-' (ds.drop 4 ++ '\n' :: rest) = none :=
        readChar_line (fun d hd => hds d (List.mem_of_mem_drop hd)) (by decide) (by decide)
      simp [readDate, hy, hdash]
  have htime : readTime (ds ++ '\n' :: rest) = none := by
    cases hh : readFixed 10 2 (ds ++ '\n' :: rest) with
    | none => simp [readTime, hh]
    | some p =>
      obtain ⟨hour, after⟩ := p
      obtain rfl := readFixed_line hh
      have hcolon : readChar ':' (ds.drop 2 ++ '\n' :: rest) = none :=
        readChar_line (fun d hd => hds d (List.mem_of_mem_drop hd)) (by decide) (by decide)
      simp [readTime, hh, hcolon]
  simp only [readMoment, hdate, htime]

theorem isDigit_of_mem_decimal (hc : c ∈ decimal n) : isDigit 10 c = true :=
  isDigit_of_mem_numeral (by omega) (by omega) hc

theorem digit_ne (hc : isDigit 10 c = true) (hx : isDigit 10 x = false) : c ≠ x := by
  rintro rfl
  rw [hc] at hx
  cases hx

theorem decimal_eq_cons (n : Nat) :
    ∃ d ds, decimal n = d :: ds ∧ isDigit 10 d = true ∧ ∀ c ∈ ds, isDigit 10 c = true := by
  cases hn : decimal n with
  | nil => exact absurd hn (numeral_ne_nil 10 n)
  | cons d ds =>
    exact ⟨d, ds, rfl, isDigit_of_mem_decimal (hn ▸ List.mem_cons_self),
      fun c hc => isDigit_of_mem_decimal (hn ▸ List.mem_cons_of_mem d hc)⟩

theorem decimal_zero_first (h : decimal n = '0' :: ds) : n = 0 ∧ ds = [] := by
  have hhead : (decimal n).head? = some '0' := by rw [h, List.head?_cons]
  have hzero : n = 0 := head?_numeral (by omega) (by omega) hhead
  subst hzero
  have hone : decimal 0 = ['0'] := numeral_of_lt (by omega)
  exact ⟨rfl, (List.cons.inj (h.symm.trans hone)).2⟩

theorem moreDigits_line (hds : ∀ d ∈ ds, isDigit 10 d = true) :
    moreDigits 10 (ds ++ '\n' :: rest) = (ds, '\n' :: rest) := by
  induction ds with
  | nil => rfl
  | cons d ds ih =>
    have hd := hds d List.mem_cons_self
    have hunder : d ≠ '_' := digit_ne hd (by decide)
    have hrest := ih fun c hc => hds c (List.mem_cons_of_mem _ hc)
    rw [List.cons_append, moreDigits]
    · simp [hd, hrest]
    · exact fun _ _ h => absurd h hunder

theorem readWhole_line (n : Nat) :
    readWhole (decimal n ++ '\n' :: rest) = some (decimal n, '\n' :: rest) := by
  obtain ⟨d, ds, hn, hd, hds⟩ := decimal_eq_cons n
  by_cases hzero : d = '0'
  · subst hzero
    obtain ⟨-, rfl⟩ := decimal_zero_first hn
    rw [hn]
    rfl
  · rw [hn, List.cons_append, readWhole]
    · simp [readSeparatedDigits, hd, moreDigits_line hds]
    · exact fun _ h => hzero (List.cons.inj h).1

theorem readSign_digit (hc : isDigit 10 c = true) : readSign (c :: cs) = (false, c :: cs) := by
  have hminus : c ≠ '-' := digit_ne hc (by decide)
  have hplus : c ≠ '+' := digit_ne hc (by decide)
  rw [readSign]
  · exact fun _ h => hminus (List.cons.inj h).1
  · exact fun _ h => hplus (List.cons.inj h).1

theorem readSign_decimal (n : Nat) :
    readSign (decimal n ++ rest) = (false, decimal n ++ rest) := by
  obtain ⟨d, ds, hn, hd, -⟩ := decimal_eq_cons n
  rw [hn, List.cons_append, readSign_digit hd]

theorem readFloat_line (n : Nat) : readFloat (decimal n ++ '\n' :: rest) = none := by
  have hpoint : readFraction ('\n' :: rest) = none := rfl
  have hexponent : readExponent ('\n' :: rest) = none := rfl
  have hpointed : readPointed (decimal n ++ '\n' :: rest) = none := by
    simp [readPointed, readSign_decimal, readWhole_line, hpoint, hexponent]
  have hspecial : readSpecial (decimal n ++ '\n' :: rest) = none := by
    obtain ⟨d, ds, hn, hd, -⟩ := decimal_eq_cons n
    have hinf : d ≠ 'i' := digit_ne hd (by decide)
    have hnan : d ≠ 'n' := digit_ne hd (by decide)
    simp [readSpecial, hn, readSign_digit hd, orElse, readLiteral, readChar, hinf, hnan]
  rw [readFloat, orElse, hpointed, hspecial]

theorem decimal_line_ne (hc : c ≠ '\n') : decimal n ++ '\n' :: rest ≠ '0' :: c :: cs := by
  obtain ⟨d, ds, hn, -⟩ := decimal_eq_cons n
  intro h
  rw [hn, List.cons_append] at h
  obtain ⟨rfl, htail⟩ := List.cons.inj h
  obtain ⟨-, rfl⟩ := decimal_zero_first hn
  exact hc (List.cons.inj htail).1.symm

theorem readInteger_line (hn : inRange n = true) :
    readInteger (decimal n ++ '\n' :: rest) = some ((n : Int), '\n' :: rest) := by
  have hvalue : value? 10 (decimal n) = some n := value_numeral (by omega) (by omega) n
  rw [readInteger]
  · rw [readSign_decimal]
    refine Option.bind_eq_some_iff.mpr ⟨_, readWhole_line n, ?_⟩
    exact Option.bind_eq_some_iff.mpr ⟨n, hvalue, if_pos hn⟩
  · exact fun _ h => decimal_line_ne (by decide) h
  · exact fun _ h => decimal_line_ne (by decide) h
  · exact fun _ h => decimal_line_ne (by decide) h

theorem readNumeric_line (hn : inRange n = true) (rest : List Char) :
    readNumeric (decimal n ++ '\n' :: rest) = some (.integer n, '\n' :: rest) := by
  have hmoment : readMoment (decimal n ++ '\n' :: rest) = none :=
    readMoment_line fun _ hc => isDigit_of_mem_decimal hc
  simp only [readNumeric, hmoment, readFloat_line, readInteger_line hn, Option.map_some]

structure Denotes (cs : List Char) (v : Value) : Prop where
  head : ∀ c ∈ cs.head?, isBlank c = false
  read : ∀ rest, readValue maxDepth (cs ++ '\n' :: rest) = some (v, '\n' :: rest)

theorem readScalar_digit (hc : isDigit 10 c = true) :
    readScalar (c :: cs) = readNumeric (c :: cs) := by
  have other (x : Char) (hx : isDigit 10 x = false) (cs' : List Char) : c :: cs ≠ x :: cs' :=
    fun h => digit_ne hc hx (List.cons.inj h).1
  rw [readScalar]
  all_goals exact other _ (by decide)

theorem readValue_eq_readScalar (hc : c ≠ '[') (hc' : c ≠ '\x7b') :
    readValue maxDepth (c :: cs) = readScalar (c :: cs) := by
  have hlist (rest : List Char) : c :: cs ≠ '[' :: rest := fun h => hc (List.cons.inj h).1
  have htable (rest : List Char) : c :: cs ≠ '\x7b' :: rest := fun h => hc' (List.cons.inj h).1
  rw [maxDepth, readValue]
  dsimp only
  split
  · exact absurd ‹_› (hlist _)
  · exact absurd ‹_› (htable _)
  · rfl

theorem denotes_decimal (hn : inRange n = true) : Denotes (decimal n) (.integer n) := by
  obtain ⟨d, ds, hds, hd, -⟩ := decimal_eq_cons n
  have hspace : d ≠ ' ' := digit_ne hd (by decide)
  have htab : d ≠ '\t' := digit_ne hd (by decide)
  refine ⟨by simp [hds, isBlank, hspace, htab], fun rest => ?_⟩
  have hread := readNumeric_line hn rest
  rw [hds, List.cons_append] at hread ⊢
  rw [readValue_eq_readScalar (digit_ne hd (by decide)) (digit_ne hd (by decide)),
    readScalar_digit hd, hread]

theorem denotes_true : Denotes "true".toList (.boolean true) :=
  ⟨fun _ hc => Option.some.inj hc ▸ rfl, fun _ => rfl⟩

theorem denotes_false : Denotes "false".toList (.boolean false) :=
  ⟨fun _ hc => Option.some.inj hc ▸ rfl, fun _ => rfl⟩

structure Bare (c : Char) : Prop where
  plain : isPlain c = true
  quote : c ≠ '"'
  backslash : c ≠ '\\'

instance (c : Char) : Decidable (Bare c) :=
  decidable_of_iff (isPlain c = true ∧ c ≠ '"' ∧ c ≠ '\\')
    ⟨fun ⟨plain, quote, backslash⟩ => ⟨plain, quote, backslash⟩,
      fun h => ⟨h.plain, h.quote, h.backslash⟩⟩

theorem Bare.newline (h : Bare c) : c ≠ '\n' := by
  rintro rfl
  exact absurd h.plain (by decide)

theorem readBasicChar_bare (h : Bare c) : readBasicChar (c :: cs) = some (c, cs) := by
  rw [readBasicChar]
  · exact if_pos h.plain
  · exact h.quote
  · exact h.backslash

theorem readMany_bare (hcs : ∀ c ∈ cs, Bare c) (hlen : cs.length ≤ m) :
    readMany readBasicChar m (cs ++ '"' :: rest) = (cs, '"' :: rest) := by
  induction cs generalizing m with
  | nil =>
    cases m with
    | zero => rfl
    | succ m => rfl
  | cons c cs ih =>
    obtain ⟨m, rfl⟩ := Nat.exists_eq_succ_of_ne_zero (by simp at hlen; omega : m ≠ 0)
    have hrest := ih (fun c hc => hcs c (List.mem_cons_of_mem _ hc)) (Nat.le_of_succ_le_succ hlen)
    rw [List.cons_append, readMany, readBasicChar_bare (hcs c List.mem_cons_self)]
    simp only [hrest]

theorem readBasic_line (hcs : ∀ c ∈ cs, Bare c) :
    readBasic (cs ++ '"' :: '\n' :: rest) = some (String.ofList cs, '\n' :: rest) := by
  have hline : (cs ++ '"' :: '\n' :: rest).takeWhile (· != '\n') = cs ++ ['"'] := by
    rw [List.takeWhile_append_of_pos fun c hc => bne_iff_ne.mpr (hcs c hc).newline]
    rfl
  have hlen : cs.length ≤ (cs ++ ['"']).length := by simp
  simp only [readBasic, hline, readMany_bare hcs hlen, readChar_cons]
  rfl

theorem denotes_quoted (hcs : ∀ c ∈ cs, Bare c) (hne : cs ≠ []) :
    Denotes ('"' :: (cs ++ ['"'])) (.string (String.ofList cs)) := by
  refine ⟨by simp [isBlank], fun rest => ?_⟩
  obtain ⟨c, cs, rfl⟩ := List.exists_cons_of_ne_nil hne
  have hstring : readString ('"' :: ((c :: cs) ++ '"' :: '\n' :: rest)) =
      readBasic ((c :: cs) ++ '"' :: '\n' :: rest) := by
    rw [readString]
    intro cs' h
    exact (hcs c List.mem_cons_self).quote (List.cons.inj h).1
  have hcons : '"' :: ((c :: cs) ++ ['"']) ++ '\n' :: rest =
      '"' :: ((c :: cs) ++ '"' :: '\n' :: rest) := by simp
  rw [hcons, readValue_eq_readScalar (by decide) (by decide), readScalar, hstring,
    readBasic_line hcs, Option.map_some]

end Fanout.Toml
