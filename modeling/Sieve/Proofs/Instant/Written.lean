import Sieve.Proofs.Decimal.Digits
import Sieve.Proofs.Instant.Scan

/-!
Numbers written at their full width, as scans take them. A scan reads such a number whole, whatever
follows it, and no scan of blanks or of a sign takes anything of it.
-/

namespace Sieve

namespace Text

theorem toNat_of_isDigit {c : Char} (h : c.isDigit = true) : 48 ≤ c.toNat ∧ c.toNat ≤ 57 := by
  simpa [Char.isDigit, UInt32.le_iff_toNat_le] using h

theorem isBlank_of_isDigit {c : Char} (h : c.isDigit = true) : isBlank c = false := by
  have digit := toNat_of_isDigit h
  simp only [isBlank, Bool.or_eq_false_iff, Bool.and_eq_false_iff, decide_eq_false_iff_not,
    beq_eq_false_iff_ne]
  omega

theorem trimStart_of_not_blank {s : List Char} (first : ∀ c ∈ s.head?, isBlank c = false) :
    trimStart s = s := by
  cases s with
  | nil => rfl
  | cons c cs => exact List.dropWhile_cons_of_neg (by rw [first c rfl]; decide)

theorem trim_of_not_blank {s : List Char} (first : ∀ c ∈ s.head?, isBlank c = false)
    (last : ∀ c ∈ s.getLast?, isBlank c = false) : trim s = s := by
  rw [← List.head?_reverse] at last
  rw [trim, trimStart_of_not_blank first, trimStart_of_not_blank last, List.reverse_reverse]

end Text

namespace Scan

/-- So many digits as the greatest width are read whole, whatever follows them. -/
theorem number_digits {least most : Nat} {ds : List Char} (enough : least ≤ most)
    (length : ds.length = most) (digits : ∀ c ∈ ds, c.isDigit = true) (rest : List Char) :
    number least most (ds ++ rest) = some (Nat.ofDigitChars 10 ds 0, rest) := by
  have front : (ds ++ rest).take most = ds := List.take_left' length
  have all : ds.takeWhile Char.isDigit = ds := List.takeWhile_eq_self_iff.mpr digits
  have not_short : ¬most < least := Nat.not_lt.mpr enough
  rw [number]
  simp only [front, all, length, not_short, if_false, List.drop_left' length]

theorem blanks_of_digit {c : Char} (digit : c.isDigit = true) (cs : List Char) :
    blanks (c :: cs) = c :: cs := by
  apply Text.trimStart_of_not_blank
  intro d hd
  cases hd
  exact Text.isBlank_of_isDigit digit

end Scan

namespace Layout

open Scan

/-- Exactly so many decimal digits. -/
structure Numeral (width : Nat) (ds : List Char) : Prop where
  length : ds.length = width
  digits : ∀ c ∈ ds, c.isDigit = true

variable {cs rest ds : List Char}

theorem Numeral.exists_cons {width : Nat} (positive : 0 < width) (numeral : Numeral width ds) :
    ∃ d ds', ds = d :: ds' ∧ d.isDigit = true := by
  obtain ⟨d, ds', split⟩ := List.exists_cons_of_length_pos (numeral.length ▸ positive)
  exact ⟨d, ds', split, numeral.digits d (split ▸ List.mem_cons_self)⟩

theorem Numeral.blanks {width : Nat} (positive : 0 < width) (numeral : Numeral width ds)
    (rest : List Char) : Scan.blanks (ds ++ rest) = ds ++ rest := by
  obtain ⟨d, ds', rfl, digit⟩ := numeral.exists_cons positive
  exact blanks_of_digit digit _

theorem Numeral.fixed {width : Nat} (numeral : Numeral width ds) (rest : List Char) :
    Scan.fixed width (ds ++ rest) = some (Nat.ofDigitChars 10 ds 0, rest) :=
  number_digits (Nat.le_refl width) numeral.length numeral.digits rest

theorem Numeral.short (numeral : Numeral 2 ds) (rest : List Char) :
    Scan.short (ds ++ rest) = some (Nat.ofDigitChars 10 ds 0, rest) := by
  rw [Scan.short, numeral.blanks (by decide)]
  exact number_digits (by decide) numeral.length numeral.digits rest

theorem Numeral.signedYear (numeral : Numeral 4 ds) (rest : List Char) :
    Layout.signedYear (ds ++ rest) = some (((Nat.ofDigitChars 10 ds 0 : Nat) : Int), rest) := by
  have start := numeral.blanks (by decide) rest
  have read : number 1 4 (ds ++ rest) = some (Nat.ofDigitChars 10 ds 0, rest) :=
    number_digits (by decide) numeral.length numeral.digits rest
  obtain ⟨d, ds', rfl, digit⟩ := numeral.exists_cons (by decide)
  rw [Layout.signedYear, start]
  split
  · rename_i minus
    cases minus
    cases digit
  · rename_i plus
    cases plus
    cases digit
  · rw [read]
    rfl

theorem fixed_eq_some_iff {width n : Nat} : fixed width cs = some (n, rest) ↔
    ∃ ds, Numeral width ds ∧ cs = ds ++ rest ∧ n = Nat.ofDigitChars 10 ds 0 := by
  constructor
  · intro h
    obtain ⟨ds, split, least, most, digits, value⟩ := number_eq_some h
    exact ⟨ds, ⟨Nat.le_antisymm most least, digits⟩, split, value.symm⟩
  · rintro ⟨ds, numeral, rfl, rfl⟩
    exact numeral.fixed rest

theorem numeral_padded {width n : Nat} (positive : 0 < width) (h : n < 10 ^ width) :
    Numeral width (Decimal.padded width n) :=
  ⟨Decimal.length_padded positive h, fun _ hc => Decimal.isDigit_of_mem_padded hc⟩

end Layout

namespace Scan

theorem fixed_padded {width n : Nat} (positive : 0 < width) (h : n < 10 ^ width)
    (rest : List Char) : fixed width (Decimal.padded width n ++ rest) = some (n, rest) := by
  have read := (Layout.numeral_padded positive h).fixed rest
  rwa [Decimal.ofDigitChars_padded] at read

theorem short_padded {n : Nat} (h : n < 100) (rest : List Char) :
    short (Decimal.padded 2 n ++ rest) = some (n, rest) := by
  have two : Layout.Numeral 2 (Decimal.padded 2 n) := Layout.numeral_padded (by decide) h
  have read := two.short rest
  rwa [Decimal.ofDigitChars_padded] at read

theorem exists_padded_cons (width n : Nat) (rest : List Char) :
    ∃ c cs, Decimal.padded width n ++ rest = c :: cs ∧ c.isDigit = true := by
  obtain ⟨c, ds, split⟩ := List.exists_cons_of_ne_nil (Decimal.padded_ne_nil width n)
  have first : c ∈ Decimal.padded width n := by
    rw [split]
    exact List.mem_cons_self
  exact ⟨c, ds ++ rest, by rw [split]; rfl, Decimal.isDigit_of_mem_padded first⟩

/-- A fraction is passed over up to what is no digit, and its first nine digits are read. -/
theorem fraction_point {ds : List Char} (some_digit : ds ≠ [])
    (each : ∀ c ∈ ds, c.isDigit = true) {rest : List Char}
    (ends : ∀ c ∈ rest.head?, c.isDigit = false) :
    fraction ('.' :: (ds ++ rest)) =
      some (Nat.ofDigitChars 10 (ds.take 9) 0 * Nat.pow 10 (9 - (ds.take 9).length), rest) := by
  have all : (ds ++ rest).takeWhile Char.isDigit = ds := by
    rw [List.takeWhile_append_of_pos each]
    cases rest with
    | nil => rw [List.takeWhile_nil, List.append_nil]
    | cons c cs => rw [List.takeWhile_cons_of_neg (by rw [ends c rfl]; decide), List.append_nil]
  have some_digit : ds.isEmpty = false := List.isEmpty_eq_false_iff.mpr some_digit
  rw [fraction]
  simp only [all, some_digit, Bool.false_eq_true, if_false, List.drop_left]

/-- A fraction of one to nine digits is read whole. -/
theorem fraction_digits {ds : List Char} (some_digit : ds ≠ []) (short : ds.length ≤ 9)
    (each : ∀ c ∈ ds, c.isDigit = true) {rest : List Char}
    (ends : ∀ c ∈ rest.head?, c.isDigit = false) :
    fraction ('.' :: (ds ++ rest)) =
      some (Nat.ofDigitChars 10 ds 0 * Nat.pow 10 (9 - ds.length), rest) := by
  rw [fraction_point some_digit each ends, List.take_of_length_le short]

/-- There is no fraction, or it is a point and some digits. -/
theorem fraction_eq_some {cs rest : List Char} {nanos : Nat}
    (h : fraction cs = some (nanos, rest)) :
    (cs = rest ∧ nanos = 0) ∨
      ∃ ds, ds ≠ [] ∧ (∀ c ∈ ds, c.isDigit = true) ∧ cs = '.' :: (ds ++ rest) ∧
        nanos = Nat.ofDigitChars 10 (ds.take 9) 0 * Nat.pow 10 (9 - (ds.take 9).length) := by
  rw [fraction.eq_def] at h
  split at h
  · rename_i after
    simp only [Option.ite_none_left_eq_some, Option.some.injEq, Prod.mk.injEq] at h
    obtain ⟨some_digit, value, left⟩ := h
    have front := List.prefix_iff_eq_append.mp (List.takeWhile_prefix (l := after) Char.isDigit)
    rw [left] at front
    refine Or.inr ⟨after.takeWhile Char.isDigit, by simpa using some_digit, ?_, ?_, value.symm⟩
    · exact fun c hc => List.mem_takeWhile_imp hc
    · rw [front]
  · cases h
    exact Or.inl ⟨rfl, rfl⟩

theorem char_self (c : Char) (cs : List Char) : char c (c :: cs) = some ((), cs) := if_pos rfl

theorem char_eq_none {c : Char} {cs : List Char} (other : ∀ d ∈ cs.head?, d ≠ c) :
    char c cs = none := by
  cases cs with
  | nil => rfl
  | cons d cs => exact if_neg (other d rfl)

theorem toLower_of_isDigit {c : Char} (h : c.isDigit = true) : c.toLower = c := by
  have digit := (Text.toNat_of_isDigit h).2
  have not_upper : ¬(c.val ≥ 'A'.val ∧ c.val ≤ 'Z'.val) := by
    simp only [ge_iff_le, UInt32.le_iff_toNat_le]
    intro upper
    exact absurd (Nat.le_trans upper.1 digit) (by decide)
  exact dif_neg not_upper

end Scan

end Sieve
