import Sieve.Calendar
import Sieve.Decimal.Style

/-!
Points in time in Coordinated Universal Time, to the nanosecond. A leap second is told by a full
second of nanoseconds on top of the second before it, which may be any. The text of a timestamp shows
it as the next second of the minute, and after the last one as second 60.
-/

namespace Sieve

/-- Seconds since the start of 1970 and nanoseconds on top, within the years of the calendar. -/
structure Timestamp where
  seconds : Int
  nanos : Nat
  nanos_lt : nanos < 2000000000
  not_before_calendar : Calendar.firstSecond ≤ seconds
  not_after_calendar : seconds ≤ Calendar.lastSecond
deriving DecidableEq

namespace Timestamp

def ofParts? (seconds : Int) (nanos : Nat) : Option Timestamp :=
  if h : nanos < 2000000000 ∧ Calendar.firstSecond ≤ seconds ∧ seconds ≤ Calendar.lastSecond then
    some ⟨seconds, nanos, h.1, h.2.1, h.2.2⟩
  else none

/-- Whole milliseconds since the start of 1970, never rounded up. -/
def millis (t : Timestamp) : Int := 1000 * t.seconds + (t.nanos / 1000000 : Nat)

/-- Four digits for the years that four digits hold, and a sign before all others. -/
def writeYear (year : Int) : List Char :=
  if 0 ≤ year ∧ year ≤ 9999 then Decimal.padded 4 year.natAbs
  else (if year < 0 then '-' else '+') :: Decimal.padded 4 year.natAbs

def writeDate (d : Date) : List Char :=
  writeYear d.year ++ '-' :: (Decimal.padded 2 d.month ++ '-' :: Decimal.padded 2 d.day)

def writeClock (hour minute second : Nat) : List Char :=
  Decimal.padded 2 hour ++ ':' :: (Decimal.padded 2 minute ++ ':' :: Decimal.padded 2 second)

/-- A fraction of a second, by no digits or by the fewest of three, six and nine. -/
def writeFraction (nanos : Nat) : List Char :=
  if nanos = 0 then []
  else if nanos % 1000000 = 0 then '.' :: Decimal.padded 3 (nanos / 1000000)
  else if nanos % 1000 = 0 then '.' :: Decimal.padded 6 (nanos / 1000)
  else '.' :: Decimal.padded 9 nanos

/-- The second as it is shown, and the nanoseconds after it. -/
def shownSecond (second nanos : Nat) : Nat × Nat :=
  if 1000000000 ≤ nanos then (second + 1, nanos - 1000000000) else (second, nanos)

/-- The date, the time and the letter of Coordinated Universal Time. -/
def write (t : Timestamp) : List Char :=
  let clock := (t.seconds % 86400).toNat
  let (second, nanos) := shownSecond (clock % 60) t.nanos
  writeDate (Date.ofDayNumber (t.seconds / 86400)) ++
    'T' :: (writeClock (clock / 3600) (clock / 60 % 60) second ++ writeFraction nanos ++ ['Z'])

def render (t : Timestamp) : String := String.ofList t.write

end Timestamp

end Sieve
