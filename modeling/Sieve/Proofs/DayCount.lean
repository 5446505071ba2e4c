import Sieve.Proofs.Calendar

/-!
Days counted one year and one month after another. The number of a day is what this count comes to,
before 1970 as after it, and it grows with year, month and day of the month read in this order.
-/

namespace Sieve

namespace Calendar

/-- The days of so many years, from a first one on. -/
def daysOfYears (first : Int) : Nat → Nat
  | 0 => 0
  | years + 1 => daysOfYears first years + if isLeap (first + years) then 366 else 365

/-- February has 28 days, or 29 in a leap year; April, June, September and November have 30, and all
the rest 31. -/
def daysOfMonth (leap : Bool) (month : Nat) : Nat :=
  if month = 2 then (if leap then 29 else 28)
  else if month = 4 ∨ month = 6 ∨ month = 9 ∨ month = 11 then 30
  else 31

/-- The days of so many months, from January on. -/
def daysOfMonths (leap : Bool) : Nat → Nat
  | 0 => 0
  | months + 1 => daysOfMonths leap months + daysOfMonth leap (months + 1)

/-- The days from the first of January 1970 to the first of January of a year, fewer than none if
that comes before. -/
def daysToYear (year : Int) : Int :=
  if 1970 ≤ year then daysOfYears 1970 (year - 1970).toNat
  else -daysOfYears year (1970 - year).toNat

theorem yearStart_succ (year : Int) :
    yearStart (year + 1) = yearStart year + if isLeap year then 366 else 365 := by
  cases leap : isLeap year <;> simp [isLeap] at leap <;> simp [yearStart] <;> omega

theorem daysOfYears_eq (first : Int) (years : Nat) :
    (daysOfYears first years : Int) = yearStart (first + years) - yearStart first := by
  induction years with
  | zero => simp [daysOfYears]
  | succ years ih =>
    have next := yearStart_succ (first + years)
    rw [daysOfYears, Int.natCast_add, ih, Int.natCast_succ, ← Int.add_assoc, next]
    cases isLeap (first + years) <;> simp <;> omega

theorem daysToYear_eq (year : Int) : daysToYear year = yearStart year - epochStart := by
  have epoch : yearStart 1970 = epochStart := by decide
  unfold daysToYear
  by_cases late : 1970 ≤ year
  · have years : (1970 : Int) + (year - 1970).toNat = year := by omega
    rw [if_pos late, daysOfYears_eq, years, epoch]
  · have years : year + (1970 - year).toNat = 1970 := by omega
    rw [if_neg late, daysOfYears_eq, years, epoch]
    omega

theorem daysOfMonths_eq : ∀ leap, ∀ months < 12,
    daysOfMonths leap months = monthStart leap (months + 1) := by decide

theorem daysOfMonths_year : ∀ leap, daysOfMonths leap 12 = if leap then 366 else 365 := by decide

theorem daysOfMonths_le (leap : Bool) {months more : Nat} (h : months ≤ more) :
    daysOfMonths leap months ≤ daysOfMonths leap more := by
  induction h with
  | refl => exact Nat.le_refl _
  | step _ ih => exact Nat.le_trans ih (Nat.le_add_right _ _)

/-- A year begins after all the months of every year before it. -/
theorem daysToYear_add_le {year later : Int} (h : year < later) :
    daysToYear year + daysOfMonths (isLeap year) 12 ≤ daysToYear later := by
  have next := yearStart_succ year
  have grows : yearStart (year + 1) ≤ yearStart later := by
    simp only [yearStart]
    omega
  rw [daysToYear_eq, daysToYear_eq, daysOfMonths_year]
  cases leap : isLeap year <;> simp [leap] at next ⊢ <;> omega

theorem getElem?_monthLengths (leap : Bool) (month : Nat) :
    (monthLengths leap)[month]? =
      if month < 12 then some (daysOfMonth leap (month + 1)) else none := by
  have twelve : (monthLengths leap).length = 12 := by cases leap <;> rfl
  have table : ∀ leap, ∀ month < 12,
      (monthLengths leap)[month]? = some (daysOfMonth leap (month + 1)) := by decide
  by_cases within : month < 12
  · rw [if_pos within, table leap month within]
  · rw [if_neg within, List.getElem?_eq_none (by omega)]

end Calendar

open Calendar

namespace Date

/-- The calendar has the days of its twelve months. -/
theorem isReal_iff (d : Date) :
    d.isReal = true ↔ (1 ≤ d.month ∧ d.month ≤ 12) ∧ 1 ≤ d.day ∧
      d.day ≤ daysOfMonth (isLeap d.year) d.month := by
  simp only [isReal, Bool.and_eq_true, decide_eq_true_eq, getElem?_monthLengths]
  by_cases first : 1 ≤ d.month
  · have month : d.month - 1 + 1 = d.month := Nat.sub_add_cancel first
    by_cases last : d.month ≤ 12
    · have within : d.month - 1 < 12 := by omega
      simp [within, month, first, last]
    · have beyond : ¬d.month - 1 < 12 := by omega
      simp [beyond, last]
  · simp [first]

/-- The days from the first of January 1970 to a day, counted year by year and then month by
month. -/
def counted (d : Date) : Int :=
  daysToYear d.year + daysOfMonths (isLeap d.year) (d.month - 1) + (d.day - 1)

theorem dayNumber_eq_counted {d : Date} (real : d.isReal = true) : d.dayNumber = d.counted := by
  obtain ⟨⟨first, last⟩, _⟩ := d.isReal_iff.mp real
  have months := daysOfMonths_eq (isLeap d.year) (d.month - 1) (by omega)
  rw [Nat.sub_add_cancel first] at months
  rw [dayNumber, counted, daysToYear_eq, months]

/-- The day before the first of January 1970, and the leap day of the year 2000. -/
example : counted ⟨1969, 12, 31⟩ = -1 ∧ counted ⟨2000, 2, 29⟩ = 11016 := by decide

/-- Earlier by the year, or else by the month, or else by the day of the month. -/
def Before (d e : Date) : Prop :=
  d.year < e.year ∨ d.year = e.year ∧ (d.month < e.month ∨ d.month = e.month ∧ d.day < e.day)

theorem before_trichotomy (d e : Date) : d.Before e ∨ d = e ∨ e.Before d := by
  obtain ⟨year, month, day⟩ := d
  obtain ⟨year', month', day'⟩ := e
  simp only [Before, Date.mk.injEq]
  omega

/-- A day lies before the first of the next month, and the last month ends with the year. -/
theorem counted_lt {d e : Date} (real : d.isReal = true) (real' : e.isReal = true)
    (h : d.Before e) : d.counted < e.counted := by
  obtain ⟨⟨first, last⟩, _, within⟩ := d.isReal_iff.mp real
  obtain ⟨⟨first', _⟩, positive', _⟩ := e.isReal_iff.mp real'
  have month_end : daysOfMonths (isLeap d.year) (d.month - 1) + d.day ≤
      daysOfMonths (isLeap d.year) d.month := by
    have next : daysOfMonths (isLeap d.year) (d.month - 1 + 1) =
      daysOfMonths (isLeap d.year) (d.month - 1) +
        daysOfMonth (isLeap d.year) (d.month - 1 + 1) := rfl
    rw [Nat.sub_add_cancel first] at next
    omega
  unfold counted
  rcases h with year | ⟨same, month | ⟨month, day⟩⟩
  · have years := daysToYear_add_le year
    have months := daysOfMonths_le (isLeap d.year) last
    omega
  · rw [same] at month_end ⊢
    have months := daysOfMonths_le (isLeap e.year) (show d.month ≤ e.month - 1 by omega)
    omega
  · rw [same, month]
    omega

end Date

end Sieve
