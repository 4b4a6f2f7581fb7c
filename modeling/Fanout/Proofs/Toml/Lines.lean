import Fanout.Proofs.Toml.Scalar
import Fanout.Toml.Document

namespace Fanout.Toml

open Text

variable {key : String} {cs value rest : List Char} {c : Char} {v : Value}

structure BareKey (key : String) : Prop where
  chars : ∀ c ∈ key.toList, isBareKey c = true
  nonempty : key.toList ≠ []

theorem isBareKey_ne {x : Char} (hc : isBareKey c = true) (hx : isBareKey x = false) : c ≠ x := by
  rintro rfl
  rw [hc] at hx
  cases hx

theorem BareKey.eq_cons (h : BareKey key) :
    ∃ c cs, key.toList = c :: cs ∧ isBareKey c = true := by
  obtain ⟨c, cs, hkey⟩ := List.exists_cons_of_ne_nil h.nonempty
  exact ⟨c, cs, hkey, h.chars c (hkey ▸ List.mem_cons_self)⟩

theorem skipBlanks_cons (hc : isBlank c = false) : skipBlanks (c :: cs) = c :: cs :=
  List.dropWhile_cons_of_neg (by simp [hc])

theorem isBlank_of_isBareKey (hc : isBareKey c = true) : isBlank c = false := by
  have hspace : c ≠ ' ' := isBareKey_ne hc (by decide)
  have htab : c ≠ '\t' := isBareKey_ne hc (by decide)
  simp [isBlank, hspace, htab]

theorem readBareKey_bare (h : BareKey key) (hrest : ∀ c ∈ rest.head?, isBareKey c = false) :
    readBareKey (key.toList ++ rest) = some (key, rest) := by
  simp [readBareKey, takeWhile_append_stop h.chars hrest, h.nonempty]

theorem readKey_bare (h : BareKey key) :
    readKey (key.toList ++ ' ' :: '=' :: cs) = some (⟨[], key⟩, '=' :: cs) := by
  obtain ⟨c, cs', hkey, hc⟩ := h.eq_cons
  have hpart : readKeyPart (key.toList ++ ' ' :: '=' :: cs) = some (key, ' ' :: '=' :: cs) := by
    have hspace : ∀ c ∈ (' ' :: '=' :: cs).head?, isBareKey c = false := by
      rintro c ⟨⟩
      decide
    have hbare := readBareKey_bare h hspace
    have hquote : c ≠ '"' := isBareKey_ne hc (by decide)
    have happos : c ≠ '\'' := isBareKey_ne hc (by decide)
    rw [hkey, List.cons_append] at hbare ⊢
    rw [readKeyPart, skipBlanks_cons (isBlank_of_isBareKey hc)]
    split
    · exact absurd (List.cons.inj ‹_›).1 hquote
    · exact absurd (List.cons.inj ‹_›).1 happos
    · exact hbare
  have hmany : readMany readNextPart maxDepth (' ' :: '=' :: cs) = ([], ' ' :: '=' :: cs) := rfl
  simp only [readKey, hpart, Option.bind_eq_bind, Option.bind_some, hmany]
  rfl

theorem readPair_bare (h : BareKey key) (hv : Denotes value v) (rest : List Char) :
    readPair (readValue maxDepth) (key.toList ++ " = ".toList ++ value ++ '\n' :: rest) =
      some ((⟨[], key⟩, v), '\n' :: rest) := by
  have hblank : skipBlanks (' ' :: (value ++ '\n' :: rest)) = value ++ '\n' :: rest := by
    have hhead : ∀ c ∈ (value ++ '\n' :: rest).head?, isBlank c = false := by
      intro c hc
      cases value with
      | nil =>
        obtain rfl := Option.some.inj hc
        decide
      | cons x value => exact hv.head c hc
    have hone : ∀ x ∈ [' '], isBlank x = true := List.all_eq_true.mp (by decide)
    exact dropWhile_append_stop hone hhead
  have htext : key.toList ++ " = ".toList ++ value ++ '\n' :: rest =
      key.toList ++ ' ' :: '=' :: ' ' :: (value ++ '\n' :: rest) := by simp
  rw [htext, readPair]
  simp [readKey_bare h, readChar_cons, hblank, hv.read]

theorem readLineEnd?_key (hc : isBareKey c = true) : readLineEnd? (c :: cs) = none := by
  have hcomment : c ≠ '#' := isBareKey_ne hc (by decide)
  have hfeed : c ≠ '\n' := isBareKey_ne hc (by decide)
  have hreturn : c ≠ '\r' := isBareKey_ne hc (by decide)
  have hskip : skipComment (c :: cs) = c :: cs := by
    rw [skipComment]
    exact fun _ h => hcomment (List.cons.inj h).1
  have hnewline : readNewline? (c :: cs) = none := by
    rw [readNewline?]
    · exact fun _ h => hfeed (List.cons.inj h).1
    · exact fun _ h => hreturn (List.cons.inj h).1
  simp only [readLineEnd?, skipBlanks_cons (isBlank_of_isBareKey hc), hskip, hnewline]

structure Setting where
  key : String
  text : List Char
  value : Value

namespace Setting

def line (p : Setting) : List Char :=
  p.key.toList ++ " = ".toList ++ p.text ++ ['\n']

structure Sound (p : Setting) : Prop where
  bare : BareKey p.key
  denotes : Denotes p.text p.value

variable {p : Setting} {ps : List Setting} {most : Nat} {lines : List Line} {d : Draft}

theorem Sound.content (h : p.Sound) (rest : List Char) :
    readContent (p.key.toList ++ " = ".toList ++ p.text ++ '\n' :: rest) =
      some (.pair ⟨[], p.key⟩ p.value, '\n' :: rest) := by
  obtain ⟨c, cs, hkey, hc⟩ := h.bare.eq_cons
  have hpair := readPair_bare h.bare h.denotes rest
  have hbracket : c ≠ '[' := isBareKey_ne hc (by decide)
  simp only [hkey, List.cons_append] at hpair ⊢
  rw [readContent]
  · simp only [hpair, Option.bind_eq_bind, Option.bind_some]
  · exact fun _ h => hbracket (List.cons.inj h).1
  · exact fun _ h => hbracket (List.cons.inj h).1

theorem Sound.readLines (h : p.Sound) (hrest : readLines most rest = some lines) :
    readLines (most + 1) (p.line ++ rest) = some (.pair ⟨[], p.key⟩ p.value :: lines) := by
  obtain ⟨c, cs, hkey, hc⟩ := h.bare.eq_cons
  have hcontent := h.content rest
  have hline : p.line ++ rest = p.key.toList ++ " = ".toList ++ p.text ++ '\n' :: rest := by
    simp [line]
  have hend : readLineEnd? ('\n' :: rest) = some rest := rfl
  rw [hline]
  simp only [hkey, List.cons_append] at hcontent ⊢
  simp only [Toml.readLines, skipBlanks_cons (isBlank_of_isBareKey hc), readLineEnd?_key hc,
    hcontent, Option.bind_eq_bind, Option.bind_some, hend, hrest]

def pair (p : Setting) : Line :=
  .pair ⟨[], p.key⟩ p.value

def entry (p : Setting) : String × Value :=
  (p.key, p.value)

theorem readLines_settings (hps : ∀ p ∈ ps, p.Sound) (hmost : ps.length < most) :
    readLines most (ps.flatMap line) = some (ps.map pair) := by
  induction ps generalizing most with
  | nil =>
    obtain ⟨most, rfl⟩ := Nat.exists_eq_succ_of_ne_zero (Nat.ne_of_gt hmost)
    rfl
  | cons p ps ih =>
    obtain ⟨most, rfl⟩ := Nat.exists_eq_succ_of_ne_zero (Nat.ne_of_gt (Nat.zero_lt_of_lt hmost))
    have hrest := ih (fun q hq => hps q (List.mem_cons_of_mem _ hq)) (Nat.lt_of_succ_lt_succ hmost)
    rw [List.flatMap_cons]
    exact (hps p List.mem_cons_self).readLines hrest

theorem add_pair (horigin : d.origin = .header) (hcurrent : d.current = [])
    (hfresh : d.root.find? p.key = none) :
    d.add p.pair = some { d with root := d.root ++ [p.entry] } := by
  obtain ⟨origin, root, current⟩ := d
  subst horigin hcurrent
  have hinsert : insertAt ⟨[], p.key⟩ p.value .header root =
      some (.header, root ++ [p.entry]) := by
    simp only [insertAt, within, insert, hfresh]
    rfl
  simp only [Draft.add, pair, Draft.change, within, hinsert, Option.bind_eq_bind, Option.bind_some]

theorem add_settings (horigin : d.origin = .header) (hcurrent : d.current = [])
    (hkeys : (ps.map Setting.key).Nodup) (hfresh : ∀ p ∈ ps, d.root.find? p.key = none) :
    (ps.map pair).foldlM Draft.add d = some { d with root := d.root ++ ps.map entry } := by
  induction ps generalizing d with
  | nil => simp
  | cons p ps ih =>
    obtain ⟨hp, hkeys⟩ := List.nodup_cons.mp hkeys
    have hadd := add_pair horigin hcurrent (hfresh p List.mem_cons_self)
    have hrest : ∀ q ∈ ps, Table.find? (d.root ++ [p.entry]) q.key = none := by
      intro q hq
      have hne : q.key ≠ p.key := fun h => hp (h ▸ List.mem_map_of_mem hq)
      have hold : d.root.lookup q.key = none := hfresh q (List.mem_cons_of_mem _ hq)
      rw [Table.find?, List.lookup_append, hold]
      simp [entry, List.lookup_cons, beq_false_of_ne hne]
    rw [List.map_cons, List.foldlM_cons, hadd]
    simpa using ih (d := { d with root := d.root ++ [p.entry] }) horigin hcurrent hkeys hrest

theorem mark_settings (hps : ∀ p ∈ ps, p.Sound) :
    withoutMark (ps.flatMap line) = ps.flatMap line := by
  cases ps with
  | nil => rfl
  | cons p ps =>
    obtain ⟨c, cs, hkey, hc⟩ := (hps p List.mem_cons_self).bare.eq_cons
    have hmark : c ≠ '\ufeff' := isBareKey_ne hc (by decide)
    simp only [List.flatMap_cons, line, hkey, List.cons_append]
    rw [withoutMark]
    exact fun _ h => hmark (List.cons.inj h).1

theorem length_le_flatMap_line (ps : List Setting) : ps.length ≤ (ps.flatMap line).length := by
  induction ps with
  | nil => exact Nat.le_refl 0
  | cons p ps ih =>
    simp only [List.flatMap_cons, List.length_append, List.length_cons, line]
    omega

theorem ofChars?_settings (hps : ∀ p ∈ ps, p.Sound) (hkeys : (ps.map Setting.key).Nodup) :
    Table.ofChars? (ps.flatMap line) = some (ps.map entry) := by
  have hread := readLines_settings hps (Nat.lt_succ_of_le (length_le_flatMap_line ps))
  have hadd := add_settings (d := {}) rfl rfl hkeys fun _ _ => rfl
  simp only [Table.ofChars?, mark_settings hps, hread, Option.bind_eq_bind, Option.bind_some,
    Table.ofLines?, hadd]
  rfl

end Setting

end Fanout.Toml
