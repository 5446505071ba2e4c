import Sieve.Instant.Reading
import Sieve.Instant.Scan

/-!
The date-time layout of mail headers: names of days and months, years of few digits, zones by name,
and comments in parentheses at the end.
-/

namespace Sieve

namespace Layout

open Scan

def mailOffset : OffsetForm where
  letter := false
  typeset := false
  between := some
  hoursAlone := false

/-- Days of the week by their distance from Monday. -/
def weekdays : List (String × Int) :=
  [("mon", 0), ("tue", 1), ("wed", 2), ("thu", 3), ("fri", 4), ("sat", 5), ("sun", 6)]

/-- The day of the week; the first of January 1970 was a Thursday. -/
def weekday (d : Date) : Int := (d.dayNumber + 3) % 7

def months : List (String × Nat) :=
  [("jan", 1), ("feb", 2), ("mar", 3), ("apr", 4), ("may", 5), ("jun", 6), ("jul", 7), ("aug", 8),
    ("sep", 9), ("oct", 10), ("nov", 11), ("dec", 12)]

/-- Hours of the zones that mail names by letters. -/
def zones : List (String × Int) :=
  [("gmt", 0), ("ut", 0), ("z", 0), ("edt", -4), ("est", -5), ("cdt", -5), ("cst", -6),
    ("mdt", -6), ("mst", -7), ("pdt", -7), ("pst", -8)]

/-- A day of the week and a comma, if the text starts with one. -/
def mailWeekday (cs : List Char) : Option (Option Int × List Char) :=
  match wordOf weekdays cs with
  | none => some (none, cs)
  | some (day, cs) => do
    let ((), cs) ← char ',' cs
    some (some day, cs)

/-- A year of two digits lies from 1950 to 2049, one of three digits counts from 1900. -/
def mailYear : Scan Nat := fun cs => do
  let (year, rest) ← digits 2 cs
  let width := cs.length - rest.length
  some (if width = 2 then (if year < 50 then year + 2000 else year + 1900)
    else if width = 3 then year + 1900 else year, rest)

/-- Seconds after a colon, if there is one. -/
def mailSecond (cs : List Char) : Option (Nat × List Char) :=
  match char ':' (blanks cs) with
  | some ((), cs) => fixed 2 cs
  | none => some (0, cs)

/-- A zone by name, by one letter that names none, or by hours and minutes. -/
def mailZone : Scan Int := fun cs =>
  match cs.takeWhile Char.isAlpha with
  | [] => offset mailOffset cs
  | letters => do
    let name := letters.map Char.toLower
    let rest := cs.drop letters.length
    match zones.lookup (String.ofList name) with
    | some hours => some (hours * 3600, rest)
    | none => if name.length = 1 ∧ name ≠ ['j'] then some (0, rest) else none

/-- The text after a comment whose opening parenthesis was passed, `depth` more being open. -/
def closeComment (depth : Nat) : List Char → Option (List Char)
  | [] => none
  | '\\' :: [] => none
  | '\\' :: _ :: cs => closeComment depth cs
  | '(' :: cs => closeComment (depth + 1) cs
  | ')' :: cs =>
    match depth with
    | 0 => some cs
    | outer + 1 => closeComment outer cs
  | _ :: cs => closeComment depth cs

/-- The text after the comments it starts with. Each takes a character, so as many rounds as there
are characters are enough. -/
def afterComments (cs : List Char) : List Char := go cs.length cs
where
  go : Nat → List Char → List Char
    | 0, cs => cs
    | rounds + 1, cs =>
      match blanks cs with
      | '(' :: inner =>
        match closeComment 0 inner with
        | some rest => go rounds rest
        | none => cs
      | _ => cs

/-- `Thu, 15 Jun 2023 10:00:00 +0000`. A day of the week has to be the right one. -/
def mailReading : Scan Reading := fun cs => do
  let (day?, cs) ← mailWeekday (blanks cs)
  let (day, cs) ← number 1 2 (blanks cs)
  let ((), cs) ← someBlanks cs
  let (month, cs) ← wordOf months cs
  let ((), cs) ← someBlanks cs
  let (year, cs) ← mailYear cs
  let ((), cs) ← someBlanks cs
  let (hour, cs) ← fixed 2 cs
  let ((), cs) ← char ':' (blanks cs)
  let (minute, cs) ← fixed 2 (blanks cs)
  let (second, cs) ← mailSecond cs
  let ((), cs) ← someBlanks cs
  let (offset, cs) ← mailZone cs
  let date : Date := ⟨year, month, day⟩
  if day?.all (· == weekday date) then
    some (⟨date, hour, minute, second, 0, some offset⟩, afterComments cs)
  else none

end Layout

end Sieve
