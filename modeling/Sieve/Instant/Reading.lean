import Sieve.Instant.Basic

/-!
What a date-time text says: a day, a time of day, and an offset if it gives one. Second 60 is the
second 59 and a full second more, in any minute.
-/

namespace Sieve

structure Reading where
  date : Date
  hour : Nat
  minute : Nat
  second : Nat
  nanos : Nat
  /-- Seconds east of Greenwich, where the text says so. -/
  offset : Option Int
deriving DecidableEq

namespace Reading

/-- The day exists in the years of the calendar and the time is one of a day. -/
def isReal (r : Reading) : Bool :=
  r.date.isReal && decide (Calendar.firstYear ≤ r.date.year) &&
    decide (r.date.year ≤ Calendar.lastYear) && decide (r.hour < 24) && decide (r.minute < 60) &&
    decide (r.second ≤ 60)

/-- The reading, if it is real. -/
def real? (r : Reading) : Option Reading := if r.isReal then some r else none

/-- Midnight in Coordinated Universal Time. -/
def midnight (d : Date) : Reading := ⟨d, 0, 0, 0, 0, some 0⟩

/-- Seconds from the start of 1970, on clocks that are so many seconds east of Greenwich. -/
def seconds (r : Reading) (offset : Int) : Int :=
  86400 * r.date.dayNumber + (3600 * r.hour + 60 * r.minute + min r.second 59 : Nat) - offset

/-- Milliseconds from the start of 1970, if the offset is less than a day and the moment lies in the
years of the calendar. -/
def millisAt? (r : Reading) (offset : Int) : Option Int :=
  let seconds := r.seconds offset
  if -86400 < offset ∧ offset < 86400 ∧ Calendar.firstSecond ≤ seconds ∧
      seconds ≤ Calendar.lastSecond then
    some (1000 * seconds + (if r.second = 60 then 1000 else 0) + (r.nanos / 1000000 : Nat))
  else none

end Reading

end Sieve
