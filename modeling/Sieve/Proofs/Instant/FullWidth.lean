import Sieve.Proofs.Instant.Plain

/-!
Date-times of the layout of internet protocols as the divided layouts read them. Numbers at their
full width are numbers to these as well, and so is a fraction of any length. So a divided layout
gets to the offset with the same date and the same time of day, if it gets there at all; and then
the two find the same offset.
-/

namespace Sieve

namespace Scan

/-- What a fraction takes is a fraction before anything that cannot be taken for more of it. -/
theorem exists_fraction {cs rest : List Char} {nanos : Nat}
    (h : fraction cs = some (nanos, rest)) :
    ∃ part, cs = part ++ rest ∧
      ∀ other, PlainTime.Ends other → fraction (part ++ other) = some (nanos, other) := by
  rcases fraction_eq_some h with ⟨rfl, rfl⟩ | ⟨ds, some_digit, each, rfl, rfl⟩
  · refine ⟨[], rfl, ?_⟩
    intro other ends
    exact PlainTime.fraction_ends ends
  · refine ⟨'.' :: ds, rfl, ?_⟩
    intro other ends
    exact fraction_point some_digit each fun c hc => (ends c hc).1

end Scan

namespace Layout

open Scan

/-- A date-time as the layout of internet protocols has it, down to the offset. -/
structure FullTime extends FullMinute where
  second : List Char
  /-- The fraction with its point, if there is one. -/
  fraction : List Char
  nanos : Nat
  second_two : Numeral 2 second
  fraction_read : ∀ rest, PlainTime.Ends rest →
    Scan.fraction (fraction ++ rest) = some (nanos, rest)

namespace FullTime

variable {t : FullTime}

/-- The text from the colon after the minute on, with what follows it. -/
def fromSecond (t : FullTime) (rest : List Char) : List Char :=
  ':' :: (t.second ++ (t.fraction ++ rest))

/-- The text and what follows it. -/
def write (t : FullTime) (rest : List Char) : List Char := t.toFullMinute.write (t.fromSecond rest)

theorem write_eq_append (t : FullTime) (rest : List Char) : t.write rest = t.write [] ++ rest := by
  simp [write, fromSecond, FullMinute.write_append]

/-- What the text says, with an offset that it may have. -/
def reading (t : FullTime) (offset : Option Int) : Reading :=
  ⟨t.date, Nat.ofDigitChars 10 t.hour 0, Nat.ofDigitChars 10 t.minute 0,
    Nat.ofDigitChars 10 t.second 0, t.nanos, offset⟩

/-- What a divided layout reads of the text to the end is the date and the time with what it takes
of the rest for an offset. -/
theorem reading_of_dividedReading {l : DividedLayout} {rest : List Char} {reading : Reading}
    (ends : PlainTime.Ends rest) (h : dividedReading l (t.write rest) = some (reading, [])) :
    ∃ offset, offsetPart l.offset rest = some (offset, []) ∧ reading = t.reading offset := by
  obtain ⟨blank, seconds, present⟩ := l
  rw [dividedReading_eq, write, FullMinute.dividedMinute_write] at h
  by_cases same : t.divider = (if blank then ' ' else 'T')
  · rw [if_pos same, Option.bind_some] at h
    cases seconds with
    | true =>
      have read : dividedSecond (t.fromSecond rest) =
          some ((Nat.ofDigitChars 10 t.second 0, t.nanos), rest) := by
        simp only [dividedSecond, fromSecond, char_self, t.second_two.short,
          t.fraction_read rest ends, Option.bind_eq_bind, Option.bind_some]
      simp only [secondPart, if_true, read, Option.bind_some, Option.map_eq_some_iff] at h
      obtain ⟨⟨offset, _⟩, offset_read, made⟩ := h
      cases made
      exact ⟨offset, offset_read, rfl⟩
    | false =>
      -- The colon before the second is no offset, nor the end of the text.
      cases present with
      | true => cases h
      | false => cases h
  · rw [if_neg same] at h
    cases h

theorem exists_divider {cs rest : List Char} {u : Unit}
    (h : internetDivider cs = some (u, rest)) :
    ∃ divider ∈ ['T', 't', ' '], cs = divider :: rest := by
  rw [internetDivider.eq_def] at h
  split at h
  · cases h
    exact ⟨'T', by simp, rfl⟩
  · cases h
    exact ⟨'t', by simp, rfl⟩
  · cases h
    exact ⟨' ', by simp, rfl⟩
  · cases h

/-- The layout of internet protocols takes such a text up to the offset. -/
theorem exists_of_internetReading {cs rest : List Char} {reading : Reading}
    (h : internetReading cs = some (reading, rest)) :
    ∃ (t : FullTime) (tail : List Char) (offset : Int), cs = t.write tail ∧
      Scan.offset internetOffset tail = some (offset, rest) ∧
      reading = t.reading (some offset) := by
  simp only [internetReading, Option.bind_eq_bind, Option.bind_eq_some_iff] at h
  obtain ⟨⟨_, cs₁⟩, year_read, ⟨_, cs₂⟩, hyphen, ⟨_, cs₃⟩, month_read, ⟨_, cs₄⟩, hyphen', ⟨_, cs₅⟩,
    day_read, ⟨_, cs₆⟩, divided, ⟨_, cs₇⟩, hour_read, ⟨_, cs₈⟩, colon, ⟨_, cs₉⟩, minute_read,
    ⟨_, cs₁₀⟩, colon', ⟨_, cs₁₁⟩, second_read, ⟨nanos, tail⟩, fraction_read, ⟨offset, _⟩,
    offset_read, made⟩ := h
  obtain ⟨year, year_four, split_year, rfl⟩ := fixed_eq_some_iff.mp year_read
  obtain ⟨month, month_two, split_month, rfl⟩ := fixed_eq_some_iff.mp month_read
  obtain ⟨day, day_two, split_day, rfl⟩ := fixed_eq_some_iff.mp day_read
  obtain ⟨hour, hour_two, split_hour, rfl⟩ := fixed_eq_some_iff.mp hour_read
  obtain ⟨minute, minute_two, split_minute, rfl⟩ := fixed_eq_some_iff.mp minute_read
  obtain ⟨second, second_two, split_second, rfl⟩ := fixed_eq_some_iff.mp second_read
  obtain ⟨fraction, split_fraction, fraction_read⟩ := exists_fraction fraction_read
  obtain ⟨divider, divides, split_divider⟩ := exists_divider divided
  cases made
  refine ⟨⟨⟨year, month, day, divider, hour, minute, year_four, month_two, day_two, divides, hour_two,
    minute_two⟩, second, fraction, nanos, second_two, fraction_read⟩, tail, offset, ?_,
    offset_read, rfl⟩
  have hyphen := char_eq_some_iff.mp hyphen
  have hyphen' := char_eq_some_iff.mp hyphen'
  have colon := char_eq_some_iff.mp colon
  have colon' := char_eq_some_iff.mp colon'
  dsimp only at *
  rw [split_year, hyphen, split_month, hyphen', split_day, split_divider, split_hour, colon,
    split_minute, colon', split_second, split_fraction]
  rfl

end FullTime

/-! ### The offset -/

/-- A signed offset of internet protocols has both its numbers, and a colon between them. -/
theorem exists_signed {tail : List Char} {offset : Int}
    (h : signedOffset internetOffset tail = some (offset, [])) :
    ∃ c ∈ ['+', '-', '−'], ∃ hours minutes, Numeral 2 hours ∧ Numeral 2 minutes ∧
      tail = c :: (hours ++ ':' :: minutes) := by
  simp only [signedOffset, Option.bind_eq_bind, Option.bind_eq_some_iff] at h
  obtain ⟨⟨minus, cs₁⟩, sign_read, ⟨_, cs₂⟩, hours_read, cs₃, between, ⟨_, cs₄⟩, minutes_read,
    made⟩ := h
  cases made
  have signed : ∃ c ∈ ['+', '-', '−'], tail = c :: cs₁ := by
    rw [sign.eq_def] at sign_read
    split at sign_read <;> cases sign_read <;> simp
  obtain ⟨c, sign, split_sign⟩ := signed
  obtain ⟨hours, hours_two, split_hours, _⟩ := fixed_eq_some_iff.mp hours_read
  have colon : cs₂ = ':' :: cs₃ := by
    obtain ⟨found, read, rfl⟩ := Option.map_eq_some_iff.mp between
    exact char_eq_some_iff.mp read
  have minutes_two : Numeral 2 cs₃ := by
    rw [offsetMinutes.eq_def] at minutes_read
    split at minutes_read
    · cases minutes_read
    · simp only [Option.bind_eq_bind, Option.bind_eq_some_iff] at minutes_read
      obtain ⟨⟨_, cs₅⟩, read, below⟩ := minutes_read
      obtain ⟨_, same⟩ := Option.ite_none_right_eq_some.mp below
      cases same
      obtain ⟨ds, two, split, _⟩ := fixed_eq_some_iff.mp read
      rwa [split, List.append_nil]
  refine ⟨c, sign, hours, cs₃, hours_two, minutes_two, ?_⟩
  dsimp only at split_hours
  rw [split_sign, split_hours, colon]

/-- Such an offset is the same to a divided layout. -/
theorem signedOffset_looseOffset {c : Char} {hours minutes : List Char} (sign : c ∈ ['+', '-', '−'])
    (hours_two : Numeral 2 hours) (minutes_two : Numeral 2 minutes) :
    signedOffset looseOffset (c :: (hours ++ ':' :: minutes)) =
      signedOffset internetOffset (c :: (hours ++ ':' :: minutes)) := by
  obtain ⟨d, ds, split, digit⟩ := minutes_two.exists_cons (by decide)
  have internet_stop : internetOffset.between (':' :: minutes) = some minutes := by
    simp [internetOffset, char_self]
  have loose_stop : looseOffset.between (':' :: minutes) = some minutes := by
    have not_colon : d ≠ ':' := by
      rintro rfl
      cases digit
    simp [looseOffset, split, not_colon, Text.isBlank_of_isDigit digit]
  have minutes_read : offsetMinutes looseOffset.hoursAlone minutes =
      offsetMinutes internetOffset.hoursAlone minutes := by
    rw [split]
    rfl
  have signed : ∃ minus, ∀ cs, Scan.sign true (c :: cs) = some (minus, cs) := by
    simp only [List.mem_cons, List.not_mem_nil, or_false] at sign
    rcases sign with rfl | rfl | rfl
    · exact ⟨false, fun _ => rfl⟩
    · exact ⟨true, fun _ => rfl⟩
    · exact ⟨true, fun _ => rfl⟩
  obtain ⟨minus, signed⟩ := signed
  have loose : Scan.sign looseOffset.typeset = Scan.sign true := rfl
  have internet : Scan.sign internetOffset.typeset = Scan.sign true := rfl
  simp only [signedOffset, loose, internet, signed, hours_two.fixed, loose_stop, internet_stop,
    minutes_read, Option.bind_eq_bind, Option.bind_some]

theorem plain_sign : ∀ c ∈ ['+', '-', '−'], c.isDigit = false ∧ c ≠ '.' ∧ c ≠ ':' ∧ c ≠ 'Z' ∧
    c ≠ 'z' ∧ Text.isBlank c = false := by
  simp [Text.isBlank]

/-- A last letter is spelled out to what a divided layout reads as the same offset, and any other
offset is read as it stands. -/
theorem exists_spelled {tail : List Char} {offset : Int}
    (h : Scan.offset internetOffset tail = some (offset, [])) :
    PlainTime.Ends tail ∧ ∃ spelled, (∀ front, spellLetter (front ++ tail) = front ++ spelled) ∧
      PlainTime.Ends spelled ∧ offsetPart true spelled = some (some offset, []) := by
  have zero : offsetPart true "+00:00".toList = some (some 0, []) := by decide
  have ends_zero : PlainTime.Ends "+00:00".toList := by
    intro c hc
    cases hc
    decide
  rw [Scan.offset.eq_def] at h
  split at h
  · cases h
    refine ⟨?_, "+00:00".toList, spellLetter_letter (by simp), ends_zero, zero⟩
    intro c hc
    cases hc
    decide
  · cases h
    refine ⟨?_, "+00:00".toList, spellLetter_letter (by simp), ends_zero, zero⟩
    intro c hc
    cases hc
    decide
  · obtain ⟨c, sign, hours, minutes, hours_two, minutes_two, rfl⟩ := exists_signed h
    obtain ⟨no_digit, no_point, no_colon, no_letter, no_letter', no_blank⟩ := plain_sign c sign
    have ends : PlainTime.Ends (c :: (hours ++ ':' :: minutes)) := by
      intro d hd
      cases hd
      exact ⟨no_digit, no_point, no_colon⟩
    have start : blanks (c :: (hours ++ ':' :: minutes)) = c :: (hours ++ ':' :: minutes) :=
      List.dropWhile_cons_of_neg (by simp [no_blank])
    have loose : Scan.offset looseOffset (c :: (hours ++ ':' :: minutes)) = some (offset, []) := by
      rw [Scan.offset.eq_def]
      split
      · rename_i same
        exact absurd (List.cons.inj same).1 no_letter
      · rename_i same
        exact absurd (List.cons.inj same).1 no_letter'
      · rwa [signedOffset_looseOffset sign hours_two minutes_two]
    refine ⟨ends, _, fun front => spellLetter_of_digit ?_, ends, ?_⟩
    · intro d hd
      have split : front ++ c :: (hours ++ ':' :: minutes) =
          (front ++ c :: (hours ++ [':'])) ++ minutes := by
        simp
      obtain ⟨_, _, some_digit, _⟩ := minutes_two.exists_cons (by decide)
      rw [split, List.getLast?_append_of_ne_nil _ (some_digit ▸ List.cons_ne_nil _ _)] at hd
      exact minutes_two.digits d (List.mem_of_getLast? hd)
    · rw [offsetPart, if_pos rfl, start, loose]
      rfl

/-- **A divided layout that goes to the end of a date-time of the internet reads the same.** -/
theorem reading_eq_of_internetReading {l : DividedLayout} {cs : List Char} {reading other : Reading}
    (h : internetReading cs = some (reading, []))
    (h' : dividedReading l (if l.offset then spellLetter cs else cs) = some (other, [])) :
    other = reading := by
  obtain ⟨t, tail, offset, rfl, offset_read, rfl⟩ := FullTime.exists_of_internetReading h
  obtain ⟨ends, spelled, spells, ends', same⟩ := exists_spelled offset_read
  cases present : l.offset with
  | true =>
    rw [present, if_pos rfl] at h'
    rw [t.write_eq_append, spells, ← t.write_eq_append] at h'
    obtain ⟨found, found_read, rfl⟩ := FullTime.reading_of_dividedReading ends' h'
    rw [present, same] at found_read
    cases found_read
    rfl
  | false =>
    rw [present] at h'
    obtain ⟨found, found_read, rfl⟩ := FullTime.reading_of_dividedReading ends h'
    rw [present] at found_read
    cases found_read
    cases offset_read

end Layout

end Sieve
