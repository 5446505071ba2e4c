import Sieve.Report
import Sieve.Instant.Basic

/-!
Options of an evaluation: the depth below which nodes are not looked at, and the offset of
date-times that give none. An offset of a day or more can be held, but it counts as no offset.
-/

namespace Sieve

structure Options where
  /-- The greatest level evaluated, the root being level 1; without one, all are. -/
  maxDepth : Option UInt64
  /-- Minutes east of Greenwich for date-times written without an offset. -/
  naiveOffsetMinutes : Int32
deriving DecidableEq

namespace Options

def default : Options := ⟨none, 0⟩

/-- The longest offset short of a day. -/
def longestOffset : Nat := 24 * 60 - 1

/-- Checks the offset. -/
def validate (o : Options) : Except FilterError Unit :=
  if o.naiveOffsetMinutes.toInt.natAbs ≤ longestOffset then .ok ()
  else .error (.invalidOffset o.naiveOffsetMinutes)

def withMaxDepth (o : Options) (depth : UInt64) : Options := { o with maxDepth := some depth }

/-- Sets the offset, if it is shorter than a day. -/
def withNaiveOffset (o : Options) (minutes : Int32) : Except FilterError Options :=
  let changed := { o with naiveOffsetMinutes := minutes }
  changed.validate.map fun () => changed

/-- The seconds in so many minutes, counted in thirty-two bits. A count past the ends of these stays
at the end. -/
def secondsIn (minutes : Int32) : Int32 :=
  let exact := 60 * minutes.toInt
  if exact < Int32.minValue.toInt then .minValue
  else if Int32.maxValue.toInt < exact then .maxValue
  else .ofInt exact

/-- The offset at which date-times without one are taken. -/
def naiveOffset (o : Options) : UtcOffset :=
  (UtcOffset.ofSeconds? (secondsIn o.naiveOffsetMinutes).toInt).getD .utc

end Options

end Sieve
