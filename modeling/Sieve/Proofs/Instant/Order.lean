import Sieve.Proofs.DayCount
import Sieve.Proofs.Decimal.Order
import Sieve.Proofs.Instant.ExplicitOffset

/-!
Date-times to the millisecond, all written alike. Such a text names the millisecond that counting
days, hours, minutes and seconds comes to, so under one configured offset the instants stand in the
lexicographic order of the texts.
-/

namespace Sieve

/-- A date in a year of four digits and a time of day, to the millisecond. -/
structure MilliTime where
  date : Date
  hour : Nat
  minute : Nat
  second : Nat
  milli : Nat
  real : date.isReal = true
  four_digits : 0 ≤ date.year ∧ date.year ≤ 9999
  hour_lt : hour < 24
  minute_lt : minute < 60
  second_lt : second < 60
  milli_lt : milli < 1000

namespace MilliTime

/-- The text, as in `2023-06-15T10:00:00.500`. -/
def write (t : MilliTime) : List Char :=
  Decimal.padded 4 t.date.year.natAbs ++ '-' :: (Decimal.padded 2 t.date.month ++ '-' ::
    (Decimal.padded 2 t.date.day ++ 'T' :: (Decimal.padded 2 t.hour ++ ':' ::
    (Decimal.padded 2 t.minute ++ ':' :: (Decimal.padded 2 t.second ++ '.' ::
    Decimal.padded 3 t.milli)))))

def render (t : MilliTime) : String := String.ofList t.write

/-- Milliseconds from the start of 1970 on clocks that are so many seconds east of Greenwich, by
counting days. -/
def millis (t : MilliTime) (offset : Int) : Int :=
  1000 * (86400 * t.date.counted + 3600 * t.hour + 60 * t.minute + t.second - offset) + t.milli

/-- The date-time with the three digits of the millisecond as the fraction of its second. -/
def plain (t : MilliTime) : PlainTime where
  date := t.date
  spaced := false
  hour := t.hour
  minute := t.minute
  second? := some {
    whole := t.second
    fraction := Decimal.padded 3 t.milli
    whole_le := Nat.le_of_lt t.second_lt
    length_le := by rw [Decimal.length_padded (by decide) t.milli_lt]; decide
    digits := fun _ hc => Decimal.isDigit_of_mem_padded hc }
  real := t.real
  four_digits := t.four_digits
  hour_lt := t.hour_lt
  minute_lt := t.minute_lt

theorem write_plain (t : MilliTime) : t.plain.write = t.write := by
  have whole := t.plain.write_append []
  rw [List.append_nil] at whole
  rw [whole]
  simp [plain, write, PlainTime.upToMinute, Layout.FullMinute.write, PlainTime.writeSecond,
    PlainSecond.write, Decimal.padded_ne_nil]

theorem nanos_plain (t : MilliTime) :
    (t.plain.reading none).nanos = t.milli * 1000000 := by
  have length : (Decimal.padded 3 t.milli).length = 3 :=
    Decimal.length_padded (by decide) t.milli_lt
  simp [plain, PlainTime.reading, PlainSecond.nanos, Decimal.ofDigitChars_padded, length]

/-- The text names the millisecond that is counted. -/
theorem parse_eq_millis (t : MilliTime) (configured : UtcOffset) :
    Instant.parse t.render configured = ⟨some (t.millis configured.seconds)⟩ := by
  obtain ⟨millis, moment⟩ := t.plain.exists_millisAt? none configured.above configured.below
  have counted := Date.dayNumber_eq_counted t.real
  have short := t.second_lt
  have same : millis = t.millis configured.seconds := by
    obtain ⟨_, total⟩ := Reading.millisAt?_eq_some_iff.mp moment
    have no_leap : (t.plain.reading none).second ≠ 60 := by
      change t.second ≠ 60
      omega
    have seconds : (t.plain.reading none).seconds configured.seconds =
        86400 * t.date.counted + (3600 * t.hour + 60 * t.minute + min t.second 59 : Nat) -
          configured.seconds := by
      rw [← counted]
      rfl
    rw [if_neg no_leap, nanos_plain, seconds] at total
    unfold MilliTime.millis
    omega
  rw [render, ← write_plain, t.plain.parse_write, moment, same]

/-- Earlier by the date, or else by the time of day. -/
def Before (t u : MilliTime) : Prop :=
  t.date.Before u.date ∨ t.date = u.date ∧ (t.hour < u.hour ∨ t.hour = u.hour ∧
    (t.minute < u.minute ∨ t.minute = u.minute ∧ (t.second < u.second ∨ t.second = u.second ∧
      t.milli < u.milli)))

theorem before_trichotomy (t u : MilliTime) : t.Before u ∨ t = u ∨ u.Before t := by
  obtain ⟨date, hour, minute, second, milli⟩ := t
  obtain ⟨date', hour', minute', second', milli'⟩ := u
  rcases date.before_trichotomy date' with earlier | same | later
  · exact Or.inl (Or.inl earlier)
  · subst same
    simp only [Before, MilliTime.mk.injEq, true_and]
    omega
  · exact Or.inr (Or.inr (Or.inl later))

/-- A time of day comes to less than a day. -/
theorem millis_lt_of_before {t u : MilliTime} (h : t.Before u) (offset : Int) :
    t.millis offset < u.millis offset := by
  have bounds := And.intro t.hour_lt (And.intro t.minute_lt (And.intro t.second_lt t.milli_lt))
  have bounds' := And.intro u.hour_lt (And.intro u.minute_lt (And.intro u.second_lt u.milli_lt))
  unfold millis
  rcases h with earlier | ⟨same, time⟩
  · have days := Date.counted_lt t.real u.real earlier
    omega
  · rw [same]
    omega

/-- Every number fits the width that it is written at. -/
theorem widths (t : MilliTime) : t.date.year.natAbs < 10 ^ 4 ∧ t.date.month < 10 ^ 2 ∧
    t.date.day < 10 ^ 2 ∧ t.hour < 10 ^ 2 ∧ t.minute < 10 ^ 2 ∧ t.second < 10 ^ 2 ∧
    t.milli < 10 ^ 3 := by
  obtain ⟨year, month, day, hour, minute⟩ := t.plain.widths
  have second := t.second_lt
  have milli := t.milli_lt
  exact ⟨year, month, day, hour, minute, by omega, by omega⟩

/-- The texts differ first where the earliest of the numbers do that differ. -/
theorem write_lt_iff_before (t u : MilliTime) : t.write < u.write ↔ t.Before u := by
  obtain ⟨year, month, day, hour, minute, second, milli⟩ := t.widths
  obtain ⟨year', month', day', hour', minute', second', milli'⟩ := u.widths
  have last : Decimal.padded 3 t.milli < Decimal.padded 3 u.milli ↔ t.milli < u.milli := by
    simpa using Decimal.padded_append_lt_iff (by decide) milli milli' [] []
  have years : t.date.year.natAbs < u.date.year.natAbs ↔ t.date.year < u.date.year := by
    have := t.four_digits
    have := u.four_digits
    omega
  have same_year : t.date.year.natAbs = u.date.year.natAbs ↔ t.date.year = u.date.year := by
    have := t.four_digits
    have := u.four_digits
    omega
  have two : 0 < 2 := by decide
  simp only [write, List.cons_lt_cons_self, last, years, same_year,
    Decimal.padded_append_lt_iff (by decide) year year',
    Decimal.padded_append_lt_iff two month month', Decimal.padded_append_lt_iff two day day',
    Decimal.padded_append_lt_iff two hour hour', Decimal.padded_append_lt_iff two minute minute',
    Decimal.padded_append_lt_iff two second second', Before, Date.Before]
  have dates : t.date = u.date ↔ t.date.year = u.date.year ∧ t.date.month = u.date.month ∧
      t.date.day = u.date.day := by
    cases t.date
    cases u.date
    simp
  rw [dates]
  omega

theorem render_lt_iff_before (t u : MilliTime) : t.render < u.render ↔ t.Before u := by
  rw [← write_lt_iff_before, String.lt_iff, render, render, String.toList_ofList,
    String.toList_ofList]

/-- What grows with the time tells any two times apart. -/
theorem eq_iff_of_grows {α : Type} [LT α] (irrefl : ∀ a : α, ¬a < a) {f : MilliTime → α}
    (grows : ∀ t u, t.Before u → f t < f u) (t u : MilliTime) : f t = f u ↔ t = u := by
  constructor
  · intro equal
    rcases t.before_trichotomy u with earlier | same | later
    · exact absurd (grows t u earlier) (equal ▸ irrefl _)
    · exact same
    · exact absurd (grows u t later) (equal ▸ irrefl _)
  · intro same
    rw [same]

theorem millis_eq_iff (t u : MilliTime) (offset : Int) :
    t.millis offset = u.millis offset ↔ t = u :=
  eq_iff_of_grows (f := fun t => t.millis offset) Int.lt_irrefl
    (fun _ _ earlier => millis_lt_of_before earlier offset) t u

theorem render_eq_iff (t u : MilliTime) : t.render = u.render ↔ t = u :=
  eq_iff_of_grows String.lt_irrefl (fun t u earlier => (t.render_lt_iff_before u).mpr earlier) t u

theorem millis_lt_iff_before (t u : MilliTime) (offset : Int) :
    t.millis offset < u.millis offset ↔ t.Before u := by
  constructor
  · intro less
    rcases t.before_trichotomy u with earlier | same | later
    · exact earlier
    · rw [same] at less
      omega
    · have := millis_lt_of_before later offset
      omega
  · intro earlier
    exact millis_lt_of_before earlier offset

/-- **The calendar is exact, and texts stand in the order of their instants.** A date-time to the
millisecond names the millisecond that the days counted year by year and month by month and the time
of day come to, less the configured offset; so of two such texts at one offset the first is before,
the same as, or after the second exactly if it is lexicographically smaller, equal, or greater. -/
theorem counted_and_in_order_of_text (t u : MilliTime) (configured : UtcOffset) :
    Instant.parse t.render configured =
      ⟨some (1000 * (86400 * t.date.counted + 3600 * t.hour + 60 * t.minute + t.second -
        configured.seconds) + t.milli)⟩ ∧
    ((Instant.parse t.render configured).isBefore (Instant.parse u.render configured) = true ↔
      t.render < u.render) ∧
    ((Instant.parse t.render configured).sameAs (Instant.parse u.render configured) = true ↔
      t.render = u.render) ∧
    ((Instant.parse t.render configured).isAfter (Instant.parse u.render configured) = true ↔
      u.render < t.render) := by
  refine ⟨t.parse_eq_millis configured, ?_, ?_, ?_⟩
  · simp only [parse_eq_millis, Instant.isBefore, Instant.related, decide_eq_true_eq]
    rw [millis_lt_iff_before, render_lt_iff_before]
  · simp only [parse_eq_millis, Instant.sameAs, Instant.related, decide_eq_true_eq]
    rw [millis_eq_iff, render_eq_iff]
  · simp only [parse_eq_millis, Instant.isAfter, Instant.related, decide_eq_true_eq]
    rw [millis_lt_iff_before, render_lt_iff_before]

/-- An hour and a millisecond before 1970. -/
def lateIn1969 : MilliTime where
  date := ⟨1969, 12, 31⟩
  hour := 22
  minute := 59
  second := 59
  milli := 999
  real := by decide
  four_digits := by decide
  hour_lt := by decide
  minute_lt := by decide
  second_lt := by decide
  milli_lt := by decide

/-- Early in the afternoon on the leap day of 2000. -/
def leapDayOf2000 : MilliTime where
  date := ⟨2000, 2, 29⟩
  hour := 12
  minute := 34
  second := 56
  milli := 500
  real := by decide
  four_digits := by decide
  hour_lt := by decide
  minute_lt := by decide
  second_lt := by decide
  milli_lt := by decide

/-- Taken one hour east of Greenwich, both name moments an hour earlier. -/
theorem late_in_1969_before_leap_day :
    (lateIn1969.render = "1969-12-31T22:59:59.999" ∧
      leapDayOf2000.render = "2000-02-29T12:34:56.500") ∧
    Instant.parse lateIn1969.render ⟨3600, by decide, by decide⟩ = ⟨some (-7200001)⟩ ∧
    Instant.parse leapDayOf2000.render ⟨3600, by decide, by decide⟩ = ⟨some 951824096500⟩ ∧
    (Instant.parse lateIn1969.render ⟨3600, by decide, by decide⟩).isBefore
      (Instant.parse leapDayOf2000.render ⟨3600, by decide, by decide⟩) = true := by
  have shown : lateIn1969.render = "1969-12-31T22:59:59.999" := by decide +kernel
  have shown_later : leapDayOf2000.render = "2000-02-29T12:34:56.500" := by decide +kernel
  have less : lateIn1969.render < leapDayOf2000.render := by
    rw [shown, shown_later]
    decide
  obtain ⟨earlier, before, _⟩ :=
    counted_and_in_order_of_text lateIn1969 leapDayOf2000 ⟨3600, by decide, by decide⟩
  obtain ⟨later, _⟩ :=
    counted_and_in_order_of_text leapDayOf2000 lateIn1969 ⟨3600, by decide, by decide⟩
  exact ⟨⟨shown, shown_later⟩, earlier, later, before.mpr less⟩

end MilliTime

end Sieve
