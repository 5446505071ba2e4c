/-!
The Gregorian calendar carried on before its start and with a year 0. Days are numbered from the
first of January 1970; the number of a date and the date of a number are defined apart.
-/

namespace Sieve

/-- A day named by year, month and day of the month, which need not exist. -/
structure Date where
  year : Int
  month : Nat
  day : Nat
deriving DecidableEq

namespace Calendar

/-- Every fourth year but three of every four centuries. -/
def isLeap (year : Int) : Bool := year % 4 == 0 && (year % 100 != 0 || year % 400 == 0)

def monthLengths (leap : Bool) : List Nat :=
  [31, if leap then 29 else 28, 31, 30, 31, 30, 31, 31, 30, 31, 30, 31]

/-- The days of a year before a month. -/
def monthStart (leap : Bool) (month : Nat) : Nat :=
  ((monthLengths leap).take (month - 1)).foldr (· + ·) 0

/-- The days from the first day of the year 1 to the first day of a year. -/
def yearStart (year : Int) : Int :=
  let past := year - 1
  365 * past + past / 4 - past / 100 + past / 400

/-- The days from the first day of the year 1 to the first of January 1970. -/
def epochStart : Int := 719162

def firstYear : Int := -262143

def lastYear : Int := 262142

/-- The first second of the first year, from the start of 1970. -/
def firstSecond : Int := -8334601228800

/-- The last second of the last year, from the start of 1970. -/
def lastSecond : Int := 8210266876799

end Calendar

open Calendar

namespace Date

/-- The calendar has the day. -/
def isReal (d : Date) : Bool :=
  decide (1 ≤ d.month) && decide (1 ≤ d.day) &&
    match (monthLengths (isLeap d.year))[d.month - 1]? with
    | some length => decide (d.day ≤ length)
    | none => false

/-- The number of a day. -/
def dayNumber (d : Date) : Int :=
  yearStart d.year - epochStart + (monthStart (isLeap d.year) d.month : Nat) + (d.day - 1)

/-- The month, from `month` on, and the day that lie so many days after the start of `month`. -/
def inMonths (month : Nat) (days : Nat) : List Nat → Nat × Nat
  | [] => (month, days + 1)
  | length :: later =>
    if days < length then (month, days + 1) else inMonths (month + 1) (days - length) later

/-- The day with a number. Four hundred years have one number of days; in them, every century but
the last, every four years but the last of a century, and every year but the last of four are
equally long. -/
def ofDayNumber (n : Int) : Date :=
  let days := n + epochStart
  let eras := days / 146097
  let inEra := days % 146097
  let centuries := min (inEra / 36524) 3
  let inCentury := inEra - 36524 * centuries
  let quadrennia := inCentury / 1461
  let inQuadrennium := inCentury % 1461
  let years := min (inQuadrennium / 365) 3
  let inYear := inQuadrennium - 365 * years
  let year := 400 * eras + 100 * centuries + 4 * quadrennia + years + 1
  let (month, day) := inMonths 1 inYear.toNat (monthLengths (isLeap year))
  ⟨year, month, day⟩

end Date

namespace Calendar

theorem firstSecond_eq : firstSecond = 86400 * Date.dayNumber ⟨firstYear, 1, 1⟩ := by decide

theorem lastSecond_eq : lastSecond = 86400 * Date.dayNumber ⟨lastYear, 12, 31⟩ + 86399 := by
  decide

end Calendar

end Sieve
