import Sieve.Proofs.Instant.Written

/-!
Layouts with a divider. The letter T and a number after blanks exclude each other behind the day,
and so do a colon and an offset or the end of the text behind the minute; and a text that ends with
a number has no last letter to spell out. So no two of these layouts read the same text.
-/

namespace Sieve

namespace Scan

variable {cs rest : List Char} {n : Nat}

/-- The last character is a digit. -/
def EndsInDigit (cs : List Char) : Prop := ∃ front d, cs = front ++ [d] ∧ d.isDigit = true

theorem EndsInDigit.of_suffix (h : EndsInDigit rest) (suffix : rest <:+ cs) : EndsInDigit cs := by
  obtain ⟨front, d, rfl, digit⟩ := h
  obtain ⟨before, rfl⟩ := suffix
  exact ⟨before ++ front, d, (List.append_assoc _ _ _).symm, digit⟩

theorem endsInDigit_of_digits (some_digit : cs ≠ []) (each : ∀ c ∈ cs, c.isDigit = true) :
    EndsInDigit cs := by
  refine ⟨cs.dropLast, cs.getLast some_digit, (List.dropLast_append_getLast some_digit).symm, ?_⟩
  exact each _ (List.getLast_mem some_digit)

theorem endsInDigit_of_short (h : short cs = some (n, [])) : EndsInDigit cs := by
  obtain ⟨ds, split, enough, _, each, _⟩ := number_eq_some h
  rw [List.append_nil] at split
  have some_digit : ds ≠ [] := by
    rintro rfl
    cases enough
  have digits := endsInDigit_of_digits some_digit each
  rw [← split] at digits
  exact digits.of_suffix (blanks_suffix cs)

/-- A fraction ends with a digit, unless there is none. -/
theorem endsInDigit_of_fraction (h : fraction cs = some (n, [])) : cs = [] ∨ EndsInDigit cs := by
  rcases fraction_eq_some h with ⟨ended, _⟩ | ⟨ds, some_digit, each, rfl, _⟩
  · exact Or.inl ended
  · rw [List.append_nil]
    exact Or.inr ((endsInDigit_of_digits some_digit each).of_suffix (List.suffix_cons '.' ds))

end Scan

namespace Layout

open Scan

variable {cs rest : List Char} {l l' : DividedLayout} {reading other : Reading}

/-- The date of a divided layout. -/
def dividedDay : Scan Date := fun cs => do
  let (year, cs) ← signedYear cs
  let ((), cs) ← char '-' cs
  let (month, cs) ← short cs
  let ((), cs) ← char '-' cs
  let (day, cs) ← short cs
  some (⟨year, month, day⟩, cs)

/-- The divider of a divided layout, and the hour and the minute. -/
def dividedTime (blank : Bool) : Scan (Nat × Nat) := fun cs => do
  let ((), cs) ← divider blank cs
  let (hour, cs) ← short cs
  let ((), cs) ← char ':' cs
  let (minute, cs) ← short cs
  some ((hour, minute), cs)

theorem dividedMinute_eq (blank : Bool) (cs : List Char) :
    dividedMinute blank cs = (dividedDay cs).bind fun day =>
      (dividedTime blank day.2).map fun time => ((day.1, time.1), time.2) := by
  simp [dividedMinute, dividedDay, dividedTime, Option.bind_assoc, Option.map_eq_bind]

theorem dividedDay_suffix {d : Date} (h : dividedDay cs = some (d, rest)) : rest <:+ cs := by
  simp only [dividedDay, Option.bind_eq_bind, Option.bind_eq_some_iff] at h
  obtain ⟨_, year, _, hyphen, _, month, _, hyphen', _, day, made⟩ := h
  cases made
  exact (short_suffix day).trans <| (char_suffix hyphen').trans <| (short_suffix month).trans <|
    (char_suffix hyphen).trans (signedYear_suffix year)

/-- The minute comes last. -/
theorem exists_minute {blank : Bool} {time : Nat × Nat}
    (h : dividedTime blank cs = some (time, rest)) :
    ∃ after, after <:+ cs ∧ short after = some (time.2, rest) := by
  simp only [dividedTime, Option.bind_eq_bind, Option.bind_eq_some_iff] at h
  obtain ⟨_, divided, _, hour, _, colon, ⟨_, _⟩, minute, made⟩ := h
  cases made
  refine ⟨_, ?_, minute⟩
  exact (char_suffix colon).trans <| (short_suffix hour).trans (divider_suffix divided)

theorem dividedTime_suffix {blank : Bool} {time : Nat × Nat}
    (h : dividedTime blank cs = some (time, rest)) : rest <:+ cs := by
  obtain ⟨after, suffix, minute⟩ := exists_minute h
  exact (short_suffix minute).trans suffix

theorem endsInDigit_of_dividedTime {blank : Bool} {time : Nat × Nat}
    (h : dividedTime blank cs = some (time, [])) : EndsInDigit cs := by
  obtain ⟨after, suffix, minute⟩ := exists_minute h
  exact (endsInDigit_of_short minute).of_suffix suffix

theorem exists_of_dividedMinute {blank : Bool} {front : Date × Nat × Nat}
    (h : dividedMinute blank cs = some (front, rest)) :
    ∃ after, dividedDay cs = some (front.1, after) ∧
      dividedTime blank after = some (front.2, rest) := by
  rw [dividedMinute_eq] at h
  obtain ⟨⟨_, after⟩, day_read, time⟩ := Option.bind_eq_some_iff.mp h
  obtain ⟨⟨_, _⟩, time_read, made⟩ := Option.map_eq_some_iff.mp time
  cases made
  exact ⟨after, day_read, time_read⟩

theorem endsInDigit_of_dividedSecond {second : Nat × Nat}
    (h : dividedSecond cs = some (second, [])) : EndsInDigit cs := by
  simp only [dividedSecond, Option.bind_eq_bind, Option.bind_eq_some_iff] at h
  obtain ⟨_, colon, ⟨_, after⟩, whole, ⟨_, _⟩, fraction, made⟩ := h
  cases made
  rcases endsInDigit_of_fraction fraction with ended | digit
  · change after = [] at ended
    rw [ended] at whole
    exact (endsInDigit_of_short whole).of_suffix (char_suffix colon)
  · exact digit.of_suffix ((short_suffix whole).trans (char_suffix colon))

/-- One divider is a letter, and after the other there is a number. -/
theorem dividedTime_exclusive {time other : (Nat × Nat) × List Char}
    (h : dividedTime false cs = some time) : dividedTime true cs ≠ some other := by
  intro h'
  simp only [dividedTime, Option.bind_eq_bind, Option.bind_eq_some_iff] at h h'
  obtain ⟨⟨_, after⟩, divided, _⟩ := h
  obtain ⟨⟨_, number⟩, passed, _, hour, _⟩ := h'
  have letter : cs = 'T' :: after := char_eq_some_iff.mp divided
  cases passed
  rw [letter] at hour
  cases hour

theorem eq_of_dividedMinute {blank blank' : Bool} {front other : (Date × Nat × Nat) × List Char}
    (h : dividedMinute blank cs = some front) (h' : dividedMinute blank' cs = some other) :
    blank = blank' ∧ front = other := by
  have same : blank = blank' := by
    obtain ⟨after, day, time⟩ := exists_of_dividedMinute h
    obtain ⟨after', day', time'⟩ := exists_of_dividedMinute h'
    cases (Prod.mk.inj (Option.some.inj (day.symm.trans day'))).2
    cases blank <;> cases blank'
    · rfl
    · exact absurd time' (dividedTime_exclusive time)
    · exact absurd time (dividedTime_exclusive time')
    · rfl
  subst same
  exact ⟨rfl, Option.some.inj (h.symm.trans h')⟩

theorem spellLetter_of_endsInDigit (h : EndsInDigit cs) : spellLetter cs = cs := by
  apply spellLetter_of_digit
  obtain ⟨front, d, rfl, digit⟩ := h
  simpa using digit

/-- Without an offset the last thing that is read is a number. -/
theorem endsInDigit_of_dividedReading (without : l.offset = false)
    (h : dividedReading l cs = some (reading, [])) : EndsInDigit cs := by
  rw [dividedReading_eq] at h
  simp only [Option.bind_eq_some_iff, Option.map_eq_some_iff] at h
  obtain ⟨⟨front, rest⟩, front_read, ⟨second, later⟩, second_read, ⟨_, _⟩, offset_read, made⟩ := h
  cases made
  rw [without] at offset_read
  cases offset_read
  obtain ⟨after, day, time⟩ := exists_of_dividedMinute front_read
  cases seconds : l.seconds with
  | false =>
    rw [seconds] at second_read
    cases second_read
    exact (endsInDigit_of_dividedTime time).of_suffix (dividedDay_suffix day)
  | true =>
    rw [seconds] at second_read
    have last : EndsInDigit rest := endsInDigit_of_dividedSecond second_read
    exact last.of_suffix ((dividedTime_suffix time).trans (dividedDay_suffix day))

theorem exists_colon {second : Nat × Nat} (h : secondPart true cs = some (second, rest)) :
    ∃ after, cs = ':' :: after := by
  simp only [secondPart, if_true, dividedSecond, Option.bind_eq_bind, Option.bind_eq_some_iff] at h
  obtain ⟨⟨_, after⟩, colon, _⟩ := h
  exact ⟨after, char_eq_some_iff.mp colon⟩

/-- A colon is no offset, nor the end of the text. -/
theorem offsetPart_colon_ne (present : Bool) (after : List Char) (offset : Option Int) :
    offsetPart present (':' :: after) ≠ some (offset, []) := by
  intro h
  cases present <;> cases h

theorem eq_of_offsetPart {present present' : Bool} {offset offset' : Option Int}
    (h : offsetPart present cs = some (offset, []))
    (h' : offsetPart present' cs = some (offset', [])) : present = present' := by
  cases present <;> cases present'
  · rfl
  · cases h
    cases h'
  · cases h'
    cases h
  · rfl

theorem eq_of_secondPart {seconds seconds' present present' : Bool}
    {second second' : (Nat × Nat) × List Char} {offset offset' : Option Int}
    (h : secondPart seconds cs = some second)
    (ends : offsetPart present second.2 = some (offset, []))
    (h' : secondPart seconds' cs = some second')
    (ends' : offsetPart present' second'.2 = some (offset', [])) :
    seconds = seconds' ∧ second = second' := by
  cases seconds <;> cases seconds'
  · exact ⟨rfl, Option.some.inj (h.symm.trans h')⟩
  · obtain ⟨after, rfl⟩ := exists_colon h'
    cases h
    exact absurd ends (offsetPart_colon_ne _ _ _)
  · obtain ⟨after, rfl⟩ := exists_colon h
    cases h'
    exact absurd ends' (offsetPart_colon_ne _ _ _)
  · exact ⟨rfl, Option.some.inj (h.symm.trans h')⟩

/-- No two divided layouts take the same text to its end. -/
theorem eq_of_dividedReading (h : dividedReading l cs = some (reading, []))
    (h' : dividedReading l' cs = some (other, [])) : l = l' := by
  obtain ⟨blank, seconds, present⟩ := l
  obtain ⟨blank', seconds', present'⟩ := l'
  rw [dividedReading_eq] at h h'
  simp only [Option.bind_eq_some_iff, Option.map_eq_some_iff] at h h'
  obtain ⟨front, front_read, second, second_read, ⟨_, _⟩, offset_read, made⟩ := h
  obtain ⟨front', front_read', second', second_read', ⟨_, _⟩, offset_read', made'⟩ := h'
  cases made
  cases made'
  obtain ⟨rfl, rfl⟩ := eq_of_dividedMinute front_read front_read'
  obtain ⟨rfl, rfl⟩ := eq_of_secondPart second_read offset_read second_read' offset_read'
  cases eq_of_offsetPart offset_read offset_read'
  rfl

/-- Nor do two read the same text to its end where a last letter is spelled out to one of them. -/
theorem eq_of_spelled
    (h : dividedReading l (if l.offset then spellLetter cs else cs) = some (reading, []))
    (h' : dividedReading l' (if l'.offset then spellLetter cs else cs) = some (other, [])) :
    l = l' := by
  cases present : l.offset <;> cases present' : l'.offset <;>
    simp only [present, present', if_true, Bool.false_eq_true, if_false] at h h'
  case true.false =>
    rw [spellLetter_of_endsInDigit (endsInDigit_of_dividedReading present' h')] at h
    exact eq_of_dividedReading h h'
  case false.true =>
    rw [spellLetter_of_endsInDigit (endsInDigit_of_dividedReading present h)] at h'
    exact eq_of_dividedReading h h'
  all_goals exact eq_of_dividedReading h h'

end Layout

end Sieve
