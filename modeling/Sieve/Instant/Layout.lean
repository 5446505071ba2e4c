import Sieve.Instant.Layout.DateOnly
import Sieve.Instant.Layout.Divided
import Sieve.Instant.Layout.Internet
import Sieve.Instant.Layout.Mail

/-!
The layouts of date-time text together, in the order in which they are tried, and the instant that a
text names.
-/

namespace Sieve

inductive Layout where
  | internet
  | mail
  | divided (l : DividedLayout)
  | dateOnly
deriving DecidableEq

namespace Layout

/-- What the whole of a text says in a layout. -/
def read? (layout : Layout) (cs : List Char) : Option Reading := do
  let (reading, rest) ← match layout with
    | .internet => internetReading cs
    | .mail => mailReading cs
    | .divided l => dividedReading l (if l.offset then spellLetter cs else cs)
    | .dateOnly => dateOnlyReading cs
  if rest.isEmpty then reading.real? else none

/-- The instant of a text in a layout, if the layout decides it. A text without an offset is taken
at the configured one, and a layout that reads such a text decides it even where no instant comes
out. -/
def instant? (layout : Layout) (configured : UtcOffset) (cs : List Char) : Option Instant :=
  match layout.read? cs with
  | none => none
  | some reading =>
    match reading.offset with
    | some offset => (reading.millisAt? offset).map fun millis => ⟨some millis⟩
    | none => some ⟨reading.millisAt? configured.seconds⟩

/-- The layouts in the order in which they are tried. -/
def all : List Layout :=
  [.internet, .mail,
    .divided ⟨false, false, true⟩, .divided ⟨true, false, true⟩, .divided ⟨true, true, true⟩,
    .divided ⟨false, true, false⟩, .divided ⟨false, false, false⟩, .divided ⟨true, true, false⟩,
    .divided ⟨true, false, false⟩,
    .dateOnly]

end Layout

namespace Instant

/-- The instant that a text names, by the first layout that decides it. -/
def parse (text : String) (configured : UtcOffset) : Instant :=
  let cs := Text.trim text.toList
  (Layout.all.findSome? fun layout => layout.instant? configured cs).getD .invalid

end Instant

end Sieve
