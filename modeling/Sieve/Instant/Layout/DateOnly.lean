import Sieve.Instant.Reading
import Sieve.Instant.Scan

/-!
Dates that stand alone, down to the year.
-/

namespace Sieve

namespace Layout

open Scan

/-- `2023-06-15`, `2023-06` or `2023`: midnight of the day, or of the first day. -/
def dateOnlyReading : Scan Reading := fun cs => do
  let (year, cs) ← fixed 4 cs
  match cs with
  | [] => some (.midnight ⟨year, 1, 1⟩, [])
  | cs =>
    let ((), cs) ← char '-' cs
    let (month, cs) ← fixed 2 cs
    match cs with
    | [] => some (.midnight ⟨year, month, 1⟩, [])
    | cs =>
      let ((), cs) ← char '-' cs
      let (day, cs) ← fixed 2 cs
      some (.midnight ⟨year, month, day⟩, cs)

end Layout

end Sieve
