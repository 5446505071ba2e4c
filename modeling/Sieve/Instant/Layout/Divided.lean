import Sieve.Instant.Reading
import Sieve.Instant.Scan

/-!
Layouts of a date and a time with a divider between them: the letter T or blanks, with or without
seconds, with or without an offset.
-/

namespace Sieve

/-- A date and a time with a divider between them. -/
structure DividedLayout where
  /-- Any blanks divide, or else the letter T. -/
  blank : Bool
  seconds : Bool
  offset : Bool
deriving DecidableEq

namespace Layout

open Scan

/-- Any run of colons and blanks may part the hours from the minutes. -/
def looseOffset : OffsetForm where
  letter := true
  typeset := true
  between cs := some (cs.dropWhile fun c => c == ':' || Text.isBlank c)
  hoursAlone := true

/-- A year of up to four digits, or a sign and any number of them. -/
def signedYear : Scan Int := fun cs =>
  match blanks cs with
  | '-' :: rest => (digits 1 rest).map fun (year, rest) => (-(year : Int), rest)
  | '+' :: rest => (digits 1 rest).map fun (year, rest) => ((year : Int), rest)
  | rest => (number 1 4 rest).map fun (year, rest) => ((year : Int), rest)

def divider (blank : Bool) (cs : List Char) : Option (Unit × List Char) :=
  if blank then some ((), blanks cs) else char 'T' cs

/-- Seconds and their fraction after a colon. -/
def dividedSecond : Scan (Nat × Nat) := fun cs => do
  let ((), cs) ← char ':' cs
  let (second, cs) ← short cs
  let (nanos, cs) ← fraction cs
  some ((second, nanos), cs)

/-- `2023-06-15T10:00`, with what the layout adds; numbers may be short and have blanks before
them. -/
def dividedReading (l : DividedLayout) : Scan Reading := fun cs => do
  let (year, cs) ← signedYear cs
  let ((), cs) ← char '-' cs
  let (month, cs) ← short cs
  let ((), cs) ← char '-' cs
  let (day, cs) ← short cs
  let ((), cs) ← divider l.blank cs
  let (hour, cs) ← short cs
  let ((), cs) ← char ':' cs
  let (minute, cs) ← short cs
  let ((second, nanos), cs) ← if l.seconds then dividedSecond cs else some ((0, 0), cs)
  let (offset, cs) ←
    if l.offset then (offset looseOffset (blanks cs)).map fun (o, cs) => (some o, cs)
    else some (none, cs)
  some (⟨⟨year, month, day⟩, hour, minute, second, nanos, offset⟩, cs)

/-- A last letter Z written out as the offset it stands for. -/
def spellLetter (cs : List Char) : List Char :=
  match cs.reverse with
  | 'Z' :: front => front.reverse ++ "+00:00".toList
  | 'z' :: front => front.reverse ++ "+00:00".toList
  | _ => cs

end Layout

end Sieve
