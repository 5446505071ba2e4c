import Sieve.Proofs.Calendar
import Sieve.Proofs.Instant.Written

/-!
Date-times written without an offset, every number at its full width. What stands after such a text
settles which layouts go on with it, so what follows is left open. A divided layout gets past the
minute if it has the divider of the text.
-/

namespace Sieve

namespace Layout

open Scan

/-- A date, the hour and the minute, every number at its full width. -/
structure FullMinute where
  year : List Char
  month : List Char
  day : List Char
  divider : Char
  hour : List Char
  minute : List Char
  year_four : Numeral 4 year
  month_two : Numeral 2 month
  day_two : Numeral 2 day
  divides : divider ∈ ['T', 't', ' ']
  hour_two : Numeral 2 hour
  minute_two : Numeral 2 minute

namespace FullMinute

/-- The text and what follows it. -/
def write (m : FullMinute) (rest : List Char) : List Char :=
  m.year ++ '-' :: (m.month ++ '-' :: (m.day ++ m.divider :: (m.hour ++ ':' ::
    (m.minute ++ rest))))

theorem write_append (m : FullMinute) (cs rest : List Char) :
    m.write cs ++ rest = m.write (cs ++ rest) := by
  simp [write]

def date (m : FullMinute) : Date :=
  ⟨Nat.ofDigitChars 10 m.year 0, Nat.ofDigitChars 10 m.month 0, Nat.ofDigitChars 10 m.day 0⟩

/-- Blanks divide where the text has a space, and the letter T where it has that in upper case. -/
theorem hour_read (blank : Bool) (m : FullMinute) (rest : List Char) :
    ((Layout.divider blank (m.divider :: (m.hour ++ rest))).bind fun found =>
      Scan.short found.2) =
      if m.divider = (if blank then ' ' else 'T') then
        some (Nat.ofDigitChars 10 m.hour 0, rest)
      else none := by
  have divides : m.divider = 'T' ∨ m.divider = 't' ∨ m.divider = ' ' := by simpa using m.divides
  have hour := m.hour_two.short rest
  generalize m.divider = d at divides
  rcases divides with rfl | rfl | rfl
  · cases blank with
    | false => simpa [Layout.divider, char_self] using hour
    | true => rfl
  · cases blank <;> rfl
  · cases blank with
    | false => rfl
    | true =>
      have start : blanks (' ' :: (m.hour ++ rest)) = m.hour ++ rest :=
        m.hour_two.blanks (by decide) rest
      simpa [Layout.divider, start] using hour

/-- A divided layout with another divider does not get past the day. -/
theorem dividedMinute_write (blank : Bool) (m : FullMinute) (rest : List Char) :
    dividedMinute blank (m.write rest) =
      if m.divider = (if blank then ' ' else 'T') then
        some ((m.date, Nat.ofDigitChars 10 m.hour 0, Nat.ofDigitChars 10 m.minute 0), rest)
      else none := by
  rw [write, dividedMinute]
  simp only [m.year_four.signedYear, m.month_two.short, m.day_two.short, char_self,
    Option.bind_eq_bind, Option.bind_some]
  rw [← Option.bind_assoc, hour_read]
  by_cases same : m.divider = (if blank then ' ' else 'T')
  · rw [if_pos same, if_pos same]
    simp only [Option.bind_some, char_self, m.minute_two.short]
    rfl
  · rw [if_neg same, if_neg same]
    rfl

end FullMinute

end Layout

/-- A second and the digits of its fraction, of which there may be none. The second 60 is written
for a leap second. -/
structure PlainSecond where
  whole : Nat
  fraction : List Char
  whole_le : whole ≤ 60
  length_le : fraction.length ≤ 9
  digits : ∀ c ∈ fraction, c.isDigit = true

/-- A date-time as it is written without an offset, in a year of four digits. -/
structure PlainTime where
  date : Date
  /-- One space divides, or else the letter T. -/
  spaced : Bool
  hour : Nat
  minute : Nat
  /-- Without one, the text ends with the minute. -/
  second? : Option PlainSecond
  real : date.isReal = true
  four_digits : 0 ≤ date.year ∧ date.year ≤ 9999
  hour_lt : hour < 24
  minute_lt : minute < 60

namespace PlainSecond

def write (s : PlainSecond) : List Char :=
  ':' :: (Decimal.padded 2 s.whole ++ if s.fraction = [] then [] else '.' :: s.fraction)

def nanos (s : PlainSecond) : Nat :=
  Nat.ofDigitChars 10 s.fraction 0 * Nat.pow 10 (9 - s.fraction.length)

end PlainSecond

namespace PlainTime

open Scan Layout

/-- The second with its colon, if it is written. -/
def writeSecond (t : PlainTime) : List Char := t.second?.elim [] PlainSecond.write

def write (t : PlainTime) : List Char :=
  Timestamp.writeDate t.date ++ (if t.spaced then ' ' else 'T') ::
    (Decimal.padded 2 t.hour ++ ':' :: (Decimal.padded 2 t.minute ++ t.writeSecond))

/-- What the text says, with an offset that it may have. -/
def reading (t : PlainTime) (offset : Option Int) : Reading :=
  ⟨t.date, t.hour, t.minute, t.second?.elim 0 PlainSecond.whole, t.second?.elim 0 PlainSecond.nanos,
    offset⟩

variable {t : PlainTime} {rest : List Char}

theorem natAbs_year (t : PlainTime) : (t.date.year.natAbs : Int) = t.date.year :=
  Int.natAbs_of_nonneg t.four_digits.1

/-- Every number fits the width that it is written at. -/
theorem widths (t : PlainTime) : t.date.year.natAbs < 10 ^ 4 ∧ t.date.month < 10 ^ 2 ∧
    t.date.day < 10 ^ 2 ∧ t.hour < 10 ^ 2 ∧ t.minute < 10 ^ 2 := by
  have bounds := Date.le_of_isReal t.real
  have year := t.four_digits
  have hour := t.hour_lt
  have minute := t.minute_lt
  omega

/-- The text as it is written down to the minute. -/
def upToMinute (t : PlainTime) : FullMinute where
  year := Decimal.padded 4 t.date.year.natAbs
  month := Decimal.padded 2 t.date.month
  day := Decimal.padded 2 t.date.day
  divider := if t.spaced then ' ' else 'T'
  hour := Decimal.padded 2 t.hour
  minute := Decimal.padded 2 t.minute
  year_four := numeral_padded (by decide) t.widths.1
  month_two := numeral_padded (by decide) t.widths.2.1
  day_two := numeral_padded (by decide) t.widths.2.2.1
  divides := by cases t.spaced <;> simp
  hour_two := numeral_padded (by decide) t.widths.2.2.2.1
  minute_two := numeral_padded (by decide) t.widths.2.2.2.2

theorem date_upToMinute (t : PlainTime) : t.upToMinute.date = t.date := by
  simp only [FullMinute.date, upToMinute, Decimal.ofDigitChars_padded, natAbs_year]

theorem write_append (t : PlainTime) (rest : List Char) :
    t.write ++ rest = t.upToMinute.write (t.writeSecond ++ rest) := by
  have year : Timestamp.writeYear t.date.year = Decimal.padded 4 t.date.year.natAbs :=
    if_pos t.four_digits
  rw [write, Timestamp.writeDate, year]
  simp only [FullMinute.write, upToMinute, List.append_assoc, List.cons_append]

/-- What follows cannot be taken for more of the second or for a second. -/
def Ends (rest : List Char) : Prop := ∀ c ∈ rest.head?, c.isDigit = false ∧ c ≠ '.' ∧ c ≠ ':'

theorem ends_nil : Ends [] := by
  intro c hc
  cases hc

theorem fraction_ends (ends : Ends rest) : Scan.fraction rest = some (0, rest) := by
  rw [Scan.fraction.eq_def]
  split
  · exact absurd rfl (ends _ rfl).2.1
  · rfl

theorem fraction_write {s : PlainSecond} (ends : Ends rest) :
    Scan.fraction ((if s.fraction = [] then [] else '.' :: s.fraction) ++ rest) =
      some (s.nanos, rest) := by
  by_cases none : s.fraction = []
  · have zero : s.nanos = 0 := by rw [PlainSecond.nanos, none]; rfl
    rw [if_pos none, List.nil_append, zero, fraction_ends ends]
  · rw [if_neg none, List.cons_append]
    exact fraction_digits none s.length_le s.digits fun c hc => (ends c hc).1

/-- The layout of internet protocols goes on to an offset if there is a second, and fails
otherwise. -/
theorem internetReading_write (ends : Ends rest) :
    internetReading (t.write ++ rest) =
      if t.second?.isSome then
        (Scan.offset internetOffset rest).map fun found => (t.reading (some found.1), found.2)
      else none := by
  obtain ⟨year, month, day, hour, minute⟩ := t.widths
  have four : 0 < 4 := by decide
  have two : 0 < 2 := by decide
  have divided (cs : List Char) :
      internetDivider ((if t.spaced then ' ' else 'T') :: cs) = some ((), cs) := by
    cases t.spaced <;> rfl
  have date : Date.mk t.date.year t.date.month t.date.day = t.date := rfl
  rw [write_append, FullMinute.write, internetReading]
  simp only [upToMinute, fixed_padded four year, fixed_padded two month, fixed_padded two day,
    fixed_padded two hour, fixed_padded two minute, char_self, divided, natAbs_year,
    Option.bind_eq_bind, Option.bind_some, date]
  cases second : t.second? with
  | none =>
    have no_second : char ':' (t.writeSecond ++ rest) = none := by
      rw [writeSecond, second]
      exact char_eq_none fun c hc => (ends c hc).2.2
    simp only [no_second, Option.bind_none, Option.isSome_none, Bool.false_eq_true, if_false]
  | some s =>
    have whole : s.whole < 10 ^ 2 := by have := s.whole_le; omega
    rw [writeSecond, second, Option.elim_some, PlainSecond.write]
    simp only [List.cons_append, List.append_assoc, char_self, fixed_padded two whole,
      fraction_write ends, Option.bind_some, Option.isSome_some, if_true, Option.map_eq_bind,
      Function.comp_def, reading, second, Option.elim_some]

/-- A divided layout goes on after the minute if it has the divider of the text. -/
theorem dividedMinute_write (blank : Bool) (t : PlainTime) (rest : List Char) :
    dividedMinute blank (t.write ++ rest) =
      if blank = t.spaced then some ((t.date, t.hour, t.minute), t.writeSecond ++ rest)
      else none := by
  have same : (if t.spaced then ' ' else 'T') = (if blank then ' ' else 'T') ↔
      blank = t.spaced := by
    cases blank <;> cases t.spaced <;> decide
  rw [write_append, FullMinute.dividedMinute_write, date_upToMinute]
  simp only [upToMinute, same, Decimal.ofDigitChars_padded]

/-- The layout that stops where the text does goes on to an offset. -/
theorem dividedReading_write (present : Bool) (ends : Ends rest) :
    dividedReading ⟨t.spaced, t.second?.isSome, present⟩ (t.write ++ rest) =
      (offsetPart present rest).map fun found => (t.reading found.1, found.2) := by
  rw [dividedReading_eq, dividedMinute_write, if_pos rfl, Option.bind_some]
  cases second : t.second? with
  | none =>
    simp only [writeSecond, second, Option.elim_none, List.nil_append, Option.isSome_none,
      secondPart, Bool.false_eq_true, if_false, Option.bind_some, reading]
  | some s =>
    have whole : s.whole < 100 := by have := s.whole_le; omega
    have read : dividedSecond (s.write ++ rest) = some ((s.whole, s.nanos), rest) := by
      simp only [dividedSecond, PlainSecond.write, List.cons_append, List.append_assoc, char_self,
        short_padded whole, fraction_write ends, Option.bind_eq_bind, Option.bind_some]
    simp only [writeSecond, second, Option.elim_some, Option.isSome_some, secondPart, if_true, read,
      Option.bind_some, reading]

/-- The text ends with the digits of its last number. -/
theorem exists_write_digits (t : PlainTime) :
    ∃ front ds, t.write = front ++ ds ∧ ds ≠ [] ∧ ∀ c ∈ ds, c.isDigit = true := by
  have padded (width n : Nat) : ∀ c ∈ Decimal.padded width n, c.isDigit = true :=
    fun _ hc => Decimal.isDigit_of_mem_padded hc
  -- Everything up to the last number is the front, whichever number that is.
  obtain ⟨front, upto⟩ : ∃ front, t.write = front ++ (Decimal.padded 2 t.minute ++
      t.writeSecond) := by
    refine ⟨Timestamp.writeDate t.date ++ (if t.spaced then ' ' else 'T') ::
      (Decimal.padded 2 t.hour ++ [':']), ?_⟩
    simp only [write, List.append_assoc, List.cons_append, List.nil_append]
  cases second : t.second? with
  | none =>
    refine ⟨front, Decimal.padded 2 t.minute, ?_, Decimal.padded_ne_nil 2 _, padded 2 _⟩
    rw [upto, writeSecond, second, Option.elim_none, List.append_nil]
  | some s =>
    have written : t.writeSecond = s.write := by rw [writeSecond, second, Option.elim_some]
    rw [written, PlainSecond.write] at upto
    by_cases none : s.fraction = []
    · refine ⟨front ++ (Decimal.padded 2 t.minute ++ [':']), Decimal.padded 2 s.whole, ?_,
        Decimal.padded_ne_nil 2 _, padded 2 _⟩
      rw [upto, if_pos none]
      simp only [List.append_assoc, List.cons_append, List.nil_append, List.append_nil]
    · refine ⟨front ++ (Decimal.padded 2 t.minute ++ ':' :: (Decimal.padded 2 s.whole ++ ['.'])),
        s.fraction, ?_, none, s.digits⟩
      rw [upto, if_neg none]
      simp only [List.append_assoc, List.cons_append, List.nil_append]

theorem isDigit_of_mem_getLast? : ∀ c ∈ t.write.getLast?, c.isDigit = true := by
  obtain ⟨front, ds, split, some_digit, each⟩ := t.exists_write_digits
  intro c hc
  rw [split, List.getLast?_append_of_ne_nil _ some_digit] at hc
  exact each c (List.mem_of_getLast? hc)

theorem isDigit_of_mem_head? : ∀ c ∈ (t.write ++ rest).head?, c.isDigit = true := by
  have some_digit : t.upToMinute.year ≠ [] := Decimal.padded_ne_nil 4 _
  intro c hc
  rw [write_append, FullMinute.write, List.head?_append_of_ne_nil _ some_digit] at hc
  exact t.upToMinute.year_four.digits c (List.mem_of_mem_head? hc)

/-- The text and what follows it have no blanks to trim, unless what follows ends with one. -/
theorem trim_write (last : ∀ c ∈ rest.getLast?, Text.isBlank c = false) :
    Text.trim (t.write ++ rest) = t.write ++ rest := by
  apply Text.trim_of_not_blank
  · intro c hc
    exact Text.isBlank_of_isDigit (isDigit_of_mem_head? c hc)
  · intro c hc
    by_cases none : rest = []
    · rw [none, List.append_nil] at hc
      exact Text.isBlank_of_isDigit (isDigit_of_mem_getLast? c hc)
    · rw [List.getLast?_append_of_ne_nil _ none] at hc
      exact last c hc

theorem second_le (t : PlainTime) : t.second?.elim 0 PlainSecond.whole ≤ 60 := by
  cases t.second? with
  | none => exact Nat.zero_le 60
  | some s => exact s.whole_le

theorem isReal_reading (t : PlainTime) (offset? : Option Int) :
    (t.reading offset?).isReal = true := by
  obtain ⟨first_year, last_year⟩ := Calendar.year_bounds t.four_digits
  simp only [Reading.isReal, Bool.and_eq_true, decide_eq_true_eq]
  exact ⟨⟨⟨⟨⟨t.real, first_year⟩, last_year⟩, t.hour_lt⟩, t.minute_lt⟩, t.second_le⟩

/-- The years of four digits lie well within the calendar, so a day more or less never leads out of
it. -/
theorem exists_millisAt? (t : PlainTime) (offset? : Option Int) {offset : Int}
    (above : -86400 < offset) (below : offset < 86400) :
    ∃ millis, (t.reading offset?).millisAt? offset = some millis := by
  have days := Date.dayNumber_bounds t.real t.four_digits
  have hour := t.hour_lt
  have minute := t.minute_lt
  refine ⟨_, Reading.millisAt?_eq_some_iff.mpr ⟨⟨above, below, ?_, ?_⟩, rfl⟩⟩
  · simp only [Reading.seconds, reading, Calendar.firstSecond]
    omega
  · simp only [Reading.seconds, reading, Calendar.lastSecond]
    omega

theorem read?_write (t : PlainTime) :
    (Layout.divided ⟨t.spaced, t.second?.isSome, false⟩).read? t.write =
      some (t.reading none) := by
  have read := dividedReading_write (t := t) false ends_nil
  rw [List.append_nil] at read
  exact read?_eq_some_iff.mpr ⟨read, t.isReal_reading none⟩

end PlainTime

end Sieve
