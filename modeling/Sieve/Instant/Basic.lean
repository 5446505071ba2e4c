import Sieve.Timestamp

/-!
Instants to the millisecond, as dates are compared, and the offsets from Coordinated Universal Time
at which texts name them. Text that names no point in time gives the invalid instant, which compares
with nothing, itself included.
-/

namespace Sieve

/-- Seconds east of Greenwich, less than a day either way. -/
structure UtcOffset where
  seconds : Int
  above : -86400 < seconds
  below : seconds < 86400
deriving DecidableEq

namespace UtcOffset

def utc : UtcOffset := ⟨0, by decide, by decide⟩

def ofSeconds? (seconds : Int) : Option UtcOffset :=
  if h : -86400 < seconds ∧ seconds < 86400 then some ⟨seconds, h.1, h.2⟩ else none

end UtcOffset

/-- Milliseconds since the start of 1970, unless the instant is invalid. -/
structure Instant where
  millis? : Option Int
deriving DecidableEq

namespace Instant

def invalid : Instant := ⟨none⟩

def ofTimestamp (t : Timestamp) : Instant := ⟨some t.millis⟩

def isValid (i : Instant) : Bool := i.millis?.isSome

/-- Holds a relation between two valid instants; no relation holds of any other two. -/
def related (relation : Int → Int → Bool) (i j : Instant) : Bool :=
  match i.millis?, j.millis? with
  | some a, some b => relation a b
  | _, _ => false

def sameAs : Instant → Instant → Bool := related fun a b => decide (a = b)

def isAfter : Instant → Instant → Bool := related fun a b => decide (b < a)

def isBefore : Instant → Instant → Bool := related fun a b => decide (a < b)

end Instant

end Sieve
