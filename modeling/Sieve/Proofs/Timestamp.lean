import Sieve.Proofs.Instant.ExplicitOffset

/-!
Timestamps through their own text. It is a date-time with the letter Z after it. A leap second is
written as the next second of its minute or as the second 60, and comes to as many milliseconds read
as either; so every timestamp whose year takes four digits is read back, to the millisecond.
-/

namespace Sieve

namespace Timestamp

/-- The day of a timestamp in Coordinated Universal Time. -/
def date (t : Timestamp) : Date := Date.ofDayNumber (t.seconds / 86400)

/-- The seconds since midnight. -/
def clock (t : Timestamp) : Nat := (t.seconds % 86400).toNat

/-- What the text of a timestamp says. -/
def reading (t : Timestamp) : Reading :=
  ⟨t.date, t.clock / 3600, t.clock / 60 % 60, (shownSecond (t.clock % 60) t.nanos).1,
    (shownSecond (t.clock % 60) t.nanos).2, some 0⟩

theorem clock_eq (t : Timestamp) : (t.clock : Int) = t.seconds % 86400 := by
  unfold clock
  omega

theorem isReal_date (t : Timestamp) : t.date.isReal = true := (Date.ofDayNumber_spec _).1

theorem hour_lt (t : Timestamp) : t.clock / 3600 < 24 := by
  unfold clock
  omega

theorem minute_lt (t : Timestamp) : t.clock / 60 % 60 < 60 := Nat.mod_lt _ (by decide)

theorem reading_leap {t : Timestamp} (leap : 1000000000 ≤ t.nanos) :
    t.reading.second = t.clock % 60 + 1 ∧ t.reading.nanos = t.nanos - 1000000000 := by
  simp only [reading, shownSecond, if_pos leap, and_self]

theorem reading_plain {t : Timestamp} (plain : ¬1000000000 ≤ t.nanos) :
    t.reading.second = t.clock % 60 ∧ t.reading.nanos = t.nanos := by
  simp only [reading, shownSecond, if_neg plain, and_self]

theorem second_reading_le (t : Timestamp) : t.reading.second ≤ 60 := by
  by_cases leap : 1000000000 ≤ t.nanos
  · rw [(reading_leap leap).1]
    omega
  · rw [(reading_plain leap).1]
    omega

theorem nanos_reading_lt (t : Timestamp) : t.reading.nanos < 1000000000 := by
  have short := t.nanos_lt
  by_cases leap : 1000000000 ≤ t.nanos
  · rw [(reading_leap leap).2]
    omega
  · rw [(reading_plain leap).2]
    omega

/-- Without its last zeros, a fraction of nine digits has as many digits less. -/
theorem exists_plainSecond_of_zeros {whole nanos k : Nat} (whole_le : whole ≤ 60)
    (h : nanos < 10 ^ 9) (some_left : k < 9) (zeros : nanos % 10 ^ k = 0)
    (written : writeFraction nanos = '.' :: Decimal.padded (9 - k) (nanos / 10 ^ k)) :
    ∃ s : PlainSecond, s.whole = whole ∧ s.nanos = nanos ∧
      s.write = ':' :: (Decimal.padded 2 whole ++ writeFraction nanos) := by
  have fits : nanos / 10 ^ k < 10 ^ (9 - k) := by
    rw [Nat.div_lt_iff_lt_mul (Nat.pow_pos (by decide)), ← Nat.pow_add]
    rwa [Nat.sub_add_cancel (Nat.le_of_lt some_left)]
  have length := Decimal.length_padded (by omega) fits
  have scaled : nanos / 10 ^ k * Nat.pow 10 k = nanos :=
    Nat.div_mul_cancel (Nat.dvd_of_mod_eq_zero zeros)
  refine ⟨⟨whole, Decimal.padded (9 - k) (nanos / 10 ^ k), whole_le, by omega,
    fun _ hc => Decimal.isDigit_of_mem_padded hc⟩, rfl, ?_, ?_⟩
  · simp only [PlainSecond.nanos, Decimal.ofDigitChars_padded, length,
      Nat.sub_sub_self (Nat.le_of_lt some_left), scaled]
  · rw [PlainSecond.write, if_neg (Decimal.padded_ne_nil _ _), written]

/-- The shortest fraction that holds all the nanoseconds is a fraction of a second. -/
theorem exists_plainSecond {whole nanos : Nat} (whole_le : whole ≤ 60) (h : nanos < 1000000000) :
    ∃ s : PlainSecond, s.whole = whole ∧ s.nanos = nanos ∧
      s.write = ':' :: (Decimal.padded 2 whole ++ writeFraction nanos) := by
  by_cases none : nanos = 0
  · subst none
    refine ⟨⟨whole, [], whole_le, by decide, fun _ hc => absurd hc List.not_mem_nil⟩, rfl, ?_, ?_⟩
    · exact Nat.zero_mul _
    · rw [PlainSecond.write, if_pos rfl, writeFraction, if_pos rfl]
  · by_cases millis : nanos % 1000000 = 0
    · have three : writeFraction nanos = '.' :: Decimal.padded (9 - 6) (nanos / 10 ^ 6) := by
        rw [writeFraction, if_neg none, if_pos millis]
        rfl
      exact exists_plainSecond_of_zeros whole_le h (by decide) millis three
    · by_cases micros : nanos % 1000 = 0
      · have six : writeFraction nanos = '.' :: Decimal.padded (9 - 3) (nanos / 10 ^ 3) := by
          rw [writeFraction, if_neg none, if_neg millis, if_pos micros]
          rfl
        exact exists_plainSecond_of_zeros whole_le h (by decide) micros six
      · have nine : writeFraction nanos = '.' :: Decimal.padded (9 - 0) (nanos / 10 ^ 0) := by
          rw [writeFraction, if_neg none, if_neg millis, if_neg micros, Nat.pow_zero, Nat.div_one]
        exact exists_plainSecond_of_zeros whole_le h (by decide) (Nat.mod_one nanos) nine

/-- The text of a timestamp is that of a date-time, with the letter after it. -/
theorem exists_plainTime (t : Timestamp) (four_digits : 0 ≤ t.date.year ∧ t.date.year ≤ 9999) :
    ∃ plain : PlainTime, t.write = plain.write ++ ['Z'] ∧ plain.reading (some 0) = t.reading := by
  obtain ⟨s, whole, nanos, written⟩ := exists_plainSecond t.second_reading_le t.nanos_reading_lt
  refine ⟨⟨t.date, false, t.clock / 3600, t.clock / 60 % 60, some s, t.isReal_date, four_digits,
    t.hour_lt, t.minute_lt⟩, ?_, ?_⟩
  · change writeDate t.date ++ 'T' :: (writeClock t.reading.hour t.reading.minute
      t.reading.second ++ writeFraction t.reading.nanos ++ ['Z']) = _
    simp only [PlainTime.write, PlainTime.writeSecond, Option.elim_some, written, writeClock,
      reading, List.append_assoc, List.cons_append, Bool.false_eq_true, if_false]
  · simp only [PlainTime.reading, Option.elim_some, whole, nanos, reading]

/-- A leap second is read as the second that it is shown as, but for the second 60. -/
theorem seconds_reading (t : Timestamp) : t.reading.seconds 0 =
    t.seconds + if 1000000000 ≤ t.nanos ∧ t.seconds % 60 < 59 then 1 else 0 := by
  have day : t.reading.date.dayNumber = t.seconds / 86400 := (Date.ofDayNumber_spec _).2
  have clock := t.clock_eq
  have hour : t.reading.hour = t.clock / 3600 := rfl
  have minute : t.reading.minute = t.clock / 60 % 60 := rfl
  rw [Reading.seconds, day, hour, minute]
  by_cases leap : 1000000000 ≤ t.nanos
  · rw [(reading_leap leap).1]
    split <;> omega
  · rw [(reading_plain leap).1, if_neg (fun h => leap h.1)]
    omega

/-- Read as the second 60 or as the next second of its minute, a leap second comes to a thousand
milliseconds more than the second before it. -/
theorem millisAt?_reading (t : Timestamp) : t.reading.millisAt? 0 = some t.millis := by
  have first := t.not_before_calendar
  have last := t.not_after_calendar
  have clock := t.clock_eq
  have seconds := t.seconds_reading
  -- The calendar ends with a minute, so a leap second that is shown as another second lies inside.
  have inside : Calendar.firstSecond ≤ t.reading.seconds 0 ∧
      t.reading.seconds 0 ≤ Calendar.lastSecond := by
    have minute_end : Calendar.lastSecond % 60 = 59 := by decide
    rw [seconds]
    split <;> omega
  have millis : 1000 * t.reading.seconds 0 + (if t.reading.second = 60 then 1000 else 0) +
      (t.reading.nanos / 1000000 : Nat) = t.millis := by
    rw [seconds, Timestamp.millis]
    by_cases leap : 1000000000 ≤ t.nanos
    · obtain ⟨second, nanos⟩ := reading_leap leap
      rw [second, nanos]
      split <;> split <;> omega
    · obtain ⟨second, nanos⟩ := reading_plain leap
      rw [second, nanos, if_neg (fun h => leap h.1)]
      split <;> omega
  rw [Reading.millisAt?, if_pos ⟨by decide, by decide, inside⟩, millis]

/-- **Reading back a timestamp.** The text of a timestamp in a year of four digits names the same
instant, whatever offset is configured. -/
theorem instant_of_render (t : Timestamp) (four_digits : 0 ≤ t.date.year ∧ t.date.year ≤ 9999)
    (configured : UtcOffset) : Instant.parse t.render configured = .ofTimestamp t := by
  obtain ⟨plain, written, same⟩ := t.exists_plainTime four_digits
  rw [render, written, plain.parse_write_append .letter, same, millisAt?_reading]
  rfl

end Timestamp

end Sieve
