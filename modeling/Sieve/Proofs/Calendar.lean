import Sieve.Calendar

/-!
The number of a date and the date of a number undo each other. A day is counted in eras of four
hundred years, centuries, quadrennia and years; only the last quadrennium of a century and the last
century of an era are out of the ordinary, and those are where a leap year is missing or is not.
-/

namespace Sieve

open Calendar

namespace Calendar

/-- A year by its era, its century in that, its quadrennium in that, and its place there. -/
def yearOf (era century quadrennium place : Int) : Int :=
  400 * era + 100 * century + 4 * quadrennium + place + 1

/-- The parts stay within the longest era, century and quadrennium there is. -/
structure Parts (century quadrennium place : Int) : Prop where
  century : 0 ≤ century ∧ century ≤ 3
  quadrennium : 0 ≤ quadrennium ∧ quadrennium ≤ 24
  place : 0 ≤ place ∧ place ≤ 3

variable {era century quadrennium place : Int}

theorem yearStart_yearOf (parts : Parts century quadrennium place) :
    yearStart (yearOf era century quadrennium place) =
      146097 * era + 36524 * century + 1461 * quadrennium + 365 * place := by
  obtain ⟨_, _, _⟩ := parts
  simp only [yearStart, yearOf]
  omega

/-- The last year of a quadrennium is a leap year, unless it is the last of a century too and not of
an era. -/
theorem isLeap_yearOf (parts : Parts century quadrennium place) :
    isLeap (yearOf era century quadrennium place) = true ↔
      place = 3 ∧ (quadrennium = 24 → century = 3) := by
  obtain ⟨_, _, _⟩ := parts
  simp only [isLeap, yearOf, Bool.and_eq_true, Bool.or_eq_true, beq_iff_eq, bne_iff_ne]
  omega

/-- The days of a year. -/
def yearLength (leap : Bool) : Nat := (monthLengths leap).foldr (· + ·) 0

theorem yearLength_eq (leap : Bool) : yearLength leap = if leap then 366 else 365 := by
  cases leap <;> rfl

/-- The calendar has every year of four digits. -/
theorem year_bounds {year : Int} (four_digits : 0 ≤ year ∧ year ≤ 9999) :
    firstYear ≤ year ∧ year ≤ lastYear := by
  unfold firstYear lastYear
  omega

end Calendar

namespace Date

/-- There are twelve months, and none is longer than 31 days. -/
theorem le_of_isReal {d : Date} (h : d.isReal = true) : d.month ≤ 12 ∧ d.day ≤ 31 := by
  have twelve : ∀ leap, (monthLengths leap).length = 12 := by decide
  have longest : ∀ leap, ∀ length ∈ monthLengths leap, length ≤ 31 := by decide
  simp only [isReal, Bool.and_eq_true, decide_eq_true_eq] at h
  obtain ⟨_, within⟩ := h
  cases entry : (monthLengths (isLeap d.year))[d.month - 1]? with
  | none => rw [entry] at within; cases within
  | some length =>
    rw [entry] at within
    obtain ⟨place, _⟩ := List.getElem?_eq_some_iff.mp entry
    have longest := longest _ length (List.mem_of_getElem? entry)
    have day : d.day ≤ length := of_decide_eq_true within
    rw [twelve] at place
    omega

theorem monthStart_le : ∀ leap, ∀ month ≤ 12, monthStart leap month ≤ 335 := by decide

/-- Ten thousand years lie between the first and the last day of a year of four digits. -/
theorem dayNumber_bounds {d : Date} (real : d.isReal = true)
    (four_digits : 0 ≤ d.year ∧ d.year ≤ 9999) :
    -719528 ≤ d.dayNumber ∧ d.dayNumber < 2932898 := by
  obtain ⟨month, day⟩ := le_of_isReal real
  have positive : 1 ≤ d.day := by
    simp only [isReal, Bool.and_eq_true, decide_eq_true_eq] at real
    exact real.1.2
  have before := monthStart_le (isLeap d.year) d.month month
  simp only [dayNumber, yearStart, epochStart]
  omega

/-- Going through the months stops in the one that has the day. -/
theorem inMonths_spec {days : Nat} {lengths : List Nat} (first : Nat)
    (h : days < lengths.foldr (· + ·) 0) :
    ∃ i length, lengths[i]? = some length ∧ (inMonths first days lengths).1 = first + i ∧
      1 ≤ (inMonths first days lengths).2 ∧ (inMonths first days lengths).2 ≤ length ∧
      (lengths.take i).foldr (· + ·) 0 + (inMonths first days lengths).2 = days + 1 := by
  induction lengths generalizing first days with
  | nil => cases h
  | cons length later ih =>
    rw [List.foldr_cons] at h
    rw [inMonths]
    by_cases here : days < length
    · rw [if_pos here]
      refine ⟨0, length, rfl, rfl, ?_, ?_, ?_⟩
      · exact Nat.succ_pos days
      · exact here
      · exact Nat.zero_add _
    · rw [if_neg here]
      have rest : days - length < later.foldr (· + ·) 0 := by omega
      obtain ⟨i, found, entry, month, positive, within, total⟩ := ih (first + 1) rest
      refine ⟨i + 1, found, entry, ?_, positive, within, ?_⟩
      · omega
      · rw [List.take_succ_cons, List.foldr_cons]
        omega

/-- The day of a number, by the year it lies in and the days of that year before it. -/
theorem exists_parts (n : Int) : ∃ era century quadrennium place, ∃ inYear : Nat,
    Parts century quadrennium place ∧
    n + epochStart = yearStart (yearOf era century quadrennium place) + inYear ∧
    inYear < yearLength (isLeap (yearOf era century quadrennium place)) ∧
    ofDayNumber n =
      ⟨yearOf era century quadrennium place,
        (inMonths 1 inYear (monthLengths (isLeap (yearOf era century quadrennium place)))).1,
        (inMonths 1 inYear (monthLengths (isLeap (yearOf era century quadrennium place)))).2⟩ := by
  -- The minima bring back the one day that four equal centuries or years leave over.
  let inEra := (n + epochStart) % 146097
  let century := min (inEra / 36524) 3
  let inCentury := inEra - 36524 * century
  let inQuadrennium := inCentury % 1461
  let place := min (inQuadrennium / 365) 3
  have parts : Parts century (inCentury / 1461) place := by
    constructor <;> omega
  refine ⟨(n + epochStart) / 146097, century, inCentury / 1461, place,
    (inQuadrennium - 365 * place).toNat, parts, ?_, ?_, rfl⟩
  · rw [yearStart_yearOf parts]
    omega
  · rw [yearLength_eq]
    cases leap : isLeap (yearOf ((n + epochStart) / 146097) century (inCentury / 1461) place) with
    | true => simp only [if_true]; omega
    | false =>
      rw [← Bool.not_eq_true, isLeap_yearOf parts] at leap
      simp only [Bool.false_eq_true, if_false]
      omega

/-- The calendar has the day of every number, and that day has that number. -/
theorem ofDayNumber_spec (n : Int) :
    (ofDayNumber n).isReal = true ∧ (ofDayNumber n).dayNumber = n := by
  obtain ⟨era, century, quadrennium, place, inYear, parts, total, within, eq⟩ := exists_parts n
  obtain ⟨i, length, entry, month, positive, day, before⟩ := inMonths_spec 1 within
  rw [eq]
  constructor
  · simp only [isReal, month, Nat.add_sub_cancel_left, entry, Bool.and_eq_true, decide_eq_true_eq]
    omega
  · simp only [dayNumber, monthStart, month, Nat.add_sub_cancel_left]
    omega

end Date

end Sieve
