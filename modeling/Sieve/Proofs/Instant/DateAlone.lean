import Sieve.Proofs.Decimal.Order
import Sieve.Proofs.Instant.ExplicitOffset

/-!
Dates that stand alone. A text without a colon names an instant only as the digits of a year, a
month and a day of the calendar, of which the month and the day may be missing; and it is the
midnight of that day.
-/

namespace Sieve

namespace Layout

open Scan

variable {cs rest : List Char} {reading : Reading}

/-- How a day is written alone, and what such a text leaves out: nothing, or the day if that is the
first, or the month too if that is January. -/
inductive SpellsDate : Date → List Char → List Char → Prop
  | day {year month day : List Char} : Numeral 4 year → Numeral 2 month → Numeral 2 day →
      SpellsDate ⟨Nat.ofDigitChars 10 year 0, Nat.ofDigitChars 10 month 0,
        Nat.ofDigitChars 10 day 0⟩ (year ++ '-' :: (month ++ '-' :: day)) []
  | month {year month : List Char} : Numeral 4 year → Numeral 2 month →
      SpellsDate ⟨Nat.ofDigitChars 10 year 0, Nat.ofDigitChars 10 month 0, 1⟩
        (year ++ '-' :: month) "-01".toList
  | year {year : List Char} : Numeral 4 year →
      SpellsDate ⟨Nat.ofDigitChars 10 year 0, 1, 1⟩ year "-01-01".toList

theorem Numeral.lt {width : Nat} {ds : List Char} (numeral : Numeral width ds) :
    Nat.ofDigitChars 10 ds 0 < 10 ^ width :=
  numeral.length ▸ Decimal.ofDigitChars_lt numeral.digits

/-- A numeral is its own value filled up to its width. -/
theorem Numeral.padded_eq {width : Nat} {ds : List Char} (positive : 0 < width)
    (numeral : Numeral width ds) :
    Decimal.padded width (Nat.ofDigitChars 10 ds 0) = ds := by
  have length : (Decimal.padded width (Nat.ofDigitChars 10 ds 0)).length = ds.length := by
    rw [Decimal.length_padded positive numeral.lt, numeral.length]
  apply Decimal.eq_of_ofDigitChars_eq length
  · exact fun _ hc => Decimal.isDigit_of_mem_padded hc
  · exact numeral.digits
  · exact Decimal.ofDigitChars_padded width _

namespace SpellsDate

variable {d : Date} {missing : List Char}

theorem exists_year (spelled : SpellsDate d cs missing) :
    ∃ year, Numeral 4 year ∧ d.year = (Nat.ofDigitChars 10 year 0 : Nat) := by
  cases spelled with
  | day four _ _ => exact ⟨_, four, rfl⟩
  | month four _ => exact ⟨_, four, rfl⟩
  | year four => exact ⟨_, four, rfl⟩

theorem four_digits (spelled : SpellsDate d cs missing) : 0 ≤ d.year ∧ d.year ≤ 9999 := by
  obtain ⟨year, four, same⟩ := spelled.exists_year
  have := four.lt
  omega

/-- With what it leaves out, the text is that of the day. -/
theorem append_missing (spelled : SpellsDate d cs missing) :
    cs ++ missing = Timestamp.writeDate d := by
  have bounds := spelled.four_digits
  rw [Timestamp.writeDate, Timestamp.writeYear, if_pos bounds]
  have first : Decimal.padded 2 1 = "01".toList := by decide
  have year {ds : List Char} (four : Numeral 4 ds) := four.padded_eq (by decide)
  have other {ds : List Char} (two : Numeral 2 ds) := two.padded_eq (by decide)
  cases spelled with
  | day four two two' => simp [year four, other two, other two']
  | month four two => simp [year four, other two, first]
  | year four => simp [year four, first]

/-- The midnight of the day is real if the day is. -/
theorem isReal_midnight (spelled : SpellsDate d cs missing) :
    (Reading.midnight d).isReal = true ↔ d.isReal = true := by
  have years := Calendar.year_bounds spelled.four_digits
  simp [Reading.isReal, Reading.midnight, years]

end SpellsDate

/-- The layout of dates alone reads nothing but what spells a date. -/
theorem exists_spellsDate_of_dateOnlyReading (h : dateOnlyReading cs = some (reading, [])) :
    ∃ d missing, SpellsDate d cs missing ∧ reading = .midnight d := by
  simp only [dateOnlyReading, Option.bind_eq_bind, Option.bind_eq_some_iff] at h
  obtain ⟨⟨_, cs₁⟩, read₁, h⟩ := h
  obtain ⟨year, four, rfl, rfl⟩ := fixed_eq_some_iff.mp read₁
  split at h
  · rename_i ended
    change cs₁ = [] at ended
    cases h
    rw [ended, List.append_nil]
    exact ⟨_, _, .year four, rfl⟩
  · simp only [Option.bind_eq_some_iff] at h
    obtain ⟨⟨_, cs₂⟩, read₂, ⟨_, cs₃⟩, read₃, h⟩ := h
    have hyphen : cs₁ = '-' :: cs₂ := char_eq_some_iff.mp read₂
    obtain ⟨month, two, split₃, rfl⟩ := fixed_eq_some_iff.mp read₃
    change cs₂ = month ++ cs₃ at split₃
    rw [hyphen, split₃]
    split at h
    · rename_i ended
      change cs₃ = [] at ended
      cases h
      rw [ended, List.append_nil]
      exact ⟨_, _, .month four two, rfl⟩
    · simp only [Option.bind_eq_some_iff] at h
      obtain ⟨⟨_, cs₄⟩, read₄, ⟨_, cs₅⟩, read₅, made⟩ := h
      have hyphen : cs₃ = '-' :: cs₄ := char_eq_some_iff.mp read₄
      obtain ⟨day, two', split₅, rfl⟩ := fixed_eq_some_iff.mp read₅
      change cs₄ = day ++ cs₅ at split₅
      cases made
      rw [hyphen, split₅, List.append_nil]
      exact ⟨_, _, .day four two two', rfl⟩

/-- And it reads all that does. -/
theorem dateOnlyReading_of_spellsDate {d : Date} {missing : List Char}
    (spelled : SpellsDate d cs missing) : dateOnlyReading cs = some (.midnight d, []) := by
  have read {width : Nat} {ds : List Char} (numeral : Numeral width ds) (rest : List Char) :
      fixed width (ds ++ rest) = some (Nat.ofDigitChars 10 ds 0, rest) :=
    fixed_eq_some_iff.mpr ⟨ds, numeral, rfl, rfl⟩
  have read_all {width : Nat} {ds : List Char} (numeral : Numeral width ds) :
      fixed width ds = some (Nat.ofDigitChars 10 ds 0, []) := by
    simpa using read numeral []
  cases spelled with
  | year four =>
    simp [dateOnlyReading, read_all four]
  | month four two =>
    simp [dateOnlyReading, read four, read_all two, char_self]
  | day four two two' =>
    simp [dateOnlyReading, read four, read two, read_all two', char_self]

/-- What a text without a colon is read as, in any layout. -/
theorem read?_eq_some_iff_spellsDate {layout : Layout} (no_colon : ':' ∉ cs) :
    layout.read? cs = some reading ↔ layout = .dateOnly ∧
      ∃ d missing, SpellsDate d cs missing ∧ d.isReal = true ∧ reading = .midnight d := by
  constructor
  · intro read
    have same := eq_dateOnly_of_read? no_colon read
    subst same
    obtain ⟨scanned, real⟩ := read?_eq_some_iff.mp read
    obtain ⟨d, missing, spelled, rfl⟩ := exists_spellsDate_of_dateOnlyReading scanned
    exact ⟨rfl, d, missing, spelled, spelled.isReal_midnight.mp real, rfl⟩
  · rintro ⟨rfl, d, missing, spelled, real, rfl⟩
    exact read?_eq_some_iff.mpr
      ⟨dateOnlyReading_of_spellsDate spelled, spelled.isReal_midnight.mpr real⟩

end Layout

namespace PlainTime

/-- The first second of a day. -/
def startOfDay (d : Date) (real : d.isReal = true) (four_digits : 0 ≤ d.year ∧ d.year ≤ 9999) :
    PlainTime where
  date := d
  spaced := false
  hour := 0
  minute := 0
  second? := some ⟨0, [], by decide, by decide, List.forall_mem_nil _⟩
  real := real
  four_digits := four_digits
  hour_lt := by decide
  minute_lt := by decide

theorem write_startOfDay {d : Date} (real : d.isReal = true)
    (four_digits : 0 ≤ d.year ∧ d.year ≤ 9999) :
    (startOfDay d real four_digits).write ++ ['Z'] =
      Timestamp.writeDate d ++ "T00:00:00Z".toList := by
  have zero : Decimal.padded 2 0 = ['0', '0'] := by decide
  simp [write, startOfDay, writeSecond, PlainSecond.write, zero]

theorem reading_startOfDay {d : Date} (real : d.isReal = true)
    (four_digits : 0 ≤ d.year ∧ d.year ≤ 9999) :
    (startOfDay d real four_digits).reading (some 0) = Reading.midnight d := rfl

end PlainTime

namespace Instant

open Layout

variable {text : String} {d : Date} {missing : List Char}

/-- A day that stands alone names what the day and its first second, written out at no offset, name
under any offset. -/
theorem parse_of_spellsDate (no_colon : ':' ∉ Text.trim text.toList)
    (spelled : SpellsDate d (Text.trim text.toList) missing) (real : d.isReal = true)
    (configured other : UtcOffset) :
    (parse text configured).isValid = true ∧ parse text configured =
      parse (String.ofList (Text.trim text.toList ++ missing ++ "T00:00:00Z".toList)) other := by
  have read : Layout.dateOnly.read? (Text.trim text.toList) = some (.midnight d) :=
    (read?_eq_some_iff_spellsDate no_colon).mpr ⟨rfl, d, missing, spelled, real, rfl⟩
  let first := PlainTime.startOfDay d real spelled.four_digits
  obtain ⟨millis, moment⟩ := first.exists_millisAt? (some 0) UtcOffset.utc.above UtcOffset.utc.below
  have alone : parse text configured = ⟨some millis⟩ :=
    parse_eq_of_read (by decide) read moment
  have full := first.parse_write_append .letter other
  rw [PlainTime.write_startOfDay, PlainTime.reading_startOfDay] at full
  rw [alone, spelled.append_missing, full]
  exact ⟨rfl, congrArg Instant.mk moment.symm⟩

/-- **Without a colon a text names a midnight or nothing.** A text without a colon is valid, under
any configured offset, exactly if it is four digits for the year, or these and two for the month, or
these and two for the day, and the calendar has the day that they come to, a month or a day that is
missing being read as 01. It then names what the date filled up so names with `T00:00:00Z` after it,
under any offset. -/
theorem date_alone_names_midnight (text : String) (no_colon : ':' ∉ Text.trim text.toList)
    (configured : UtcOffset) :
    ((parse text configured).isValid = true ↔
      ∃ d missing, SpellsDate d (Text.trim text.toList) missing ∧ d.isReal = true) ∧
    ∀ d missing, SpellsDate d (Text.trim text.toList) missing → d.isReal = true → ∀ other,
      parse text configured =
        parse (String.ofList (Text.trim text.toList ++ missing ++ "T00:00:00Z".toList)) other := by
  refine ⟨⟨?_, ?_⟩, ?_⟩
  · intro valid
    obtain ⟨layout, reading, read⟩ := exists_read?_of_isValid valid
    obtain ⟨_, d, missing, spelled, real, _⟩ := (read?_eq_some_iff_spellsDate no_colon).mp read
    exact ⟨d, missing, spelled, real⟩
  · rintro ⟨d, missing, spelled, real⟩
    exact (parse_of_spellsDate no_colon spelled real configured configured).1
  · intro d missing spelled real other
    exact (parse_of_spellsDate no_colon spelled real configured other).2

/-- A month stands for its first day, whatever the clocks of the place show. -/
theorem month_alone_in_India :
    ':' ∉ Text.trim " 2024-02 ".toList ∧
      SpellsDate ⟨2024, 2, 1⟩ (Text.trim " 2024-02 ".toList) "-01".toList ∧
      parse " 2024-02 " ⟨19800, by decide, by decide⟩ = parse "2024-02-01T00:00:00Z" .utc ∧
      parse " 2024-02 " ⟨19800, by decide, by decide⟩ = ⟨some 1706745600000⟩ := by
  have no_colon : ':' ∉ Text.trim " 2024-02 ".toList := by decide +kernel
  have year : Numeral 4 "2024".toList := ⟨rfl, by simp⟩
  have month : Numeral 2 "02".toList := ⟨rfl, by simp⟩
  have spelled : SpellsDate ⟨2024, 2, 1⟩ (Text.trim " 2024-02 ".toList) "-01".toList := by
    have trimmed : Text.trim " 2024-02 ".toList = "2024".toList ++ '-' :: "02".toList := by
      decide +kernel
    rw [trimmed]
    exact .month year month
  have midnight := (date_alone_names_midnight " 2024-02 " no_colon
    ⟨19800, by decide, by decide⟩).2 _ _ spelled (by decide) .utc
  have full : String.ofList (Text.trim " 2024-02 ".toList ++ "-01".toList ++
      "T00:00:00Z".toList) = "2024-02-01T00:00:00Z" := by
    decide +kernel
  rw [full] at midnight
  exact ⟨no_colon, spelled, midnight, by decide +kernel⟩

end Instant

end Sieve
