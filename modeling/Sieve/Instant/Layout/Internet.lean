import Sieve.Instant.Reading
import Sieve.Instant.Scan

/-!
The date-time layout of internet protocols: every number at its full width, and always an offset.
-/

namespace Sieve

namespace Layout

open Scan

def internetOffset : OffsetForm where
  letter := true
  typeset := true
  between cs := (char ':' cs).map (·.2)
  hoursAlone := false

/-- The letter T in either case, or one space. -/
def internetDivider : Scan Unit
  | 'T' :: cs => some ((), cs)
  | 't' :: cs => some ((), cs)
  | ' ' :: cs => some ((), cs)
  | _ => none

/-- `2023-06-15T10:00:00.5+02:00`, every number at its full width. -/
def internetReading : Scan Reading := fun cs => do
  let (year, cs) ← fixed 4 cs
  let ((), cs) ← char '-' cs
  let (month, cs) ← fixed 2 cs
  let ((), cs) ← char '-' cs
  let (day, cs) ← fixed 2 cs
  let ((), cs) ← internetDivider cs
  let (hour, cs) ← fixed 2 cs
  let ((), cs) ← char ':' cs
  let (minute, cs) ← fixed 2 cs
  let ((), cs) ← char ':' cs
  let (second, cs) ← fixed 2 cs
  let (nanos, cs) ← fraction cs
  let (offset, cs) ← offset internetOffset cs
  some (⟨⟨year, month, day⟩, hour, minute, second, nanos, some offset⟩, cs)

end Layout

end Sieve
