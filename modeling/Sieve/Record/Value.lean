import Sieve.Binary64.Rounding
import Sieve.Timestamp

/-!
Values of the fields of a record, and what reading a field as one kind of value can come to.
-/

namespace Sieve

inductive FieldValue where
  | bool (b : Bool)
  | number (x : Binary64)
  | text (s : String)
  | date (t : Timestamp)

inductive FieldKind where
  | bool | number | text | date
deriving DecidableEq

def FieldKind.name : FieldKind → String
  | .bool => "boolean"
  | .number => "number"
  | .text => "text"
  | .date => "date"

namespace FieldValue

def kind : FieldValue → FieldKind
  | .bool _ => .bool
  | .number _ => .number
  | .text _ => .text
  | .date _ => .date

/-- Equality of values, numbers as binary64 compares them. -/
def same : FieldValue → FieldValue → Bool
  | .bool a, .bool b => a == b
  | .number x, .number y => x.same y
  | .text s, .text t => s == t
  | .date s, .date t => decide (s = t)
  | _, _ => false

end FieldValue

/-- What reading a field as one kind of value comes to. -/
inductive FieldAccess (α : Type) where
  | absent
  /-- The field holds a value of another kind. -/
  | mismatch (actual : FieldKind)
  | present (value : α)

/-- The value, if there is one of the wanted kind. -/
def FieldAccess.value? {α : Type} : FieldAccess α → Option α
  | .present value => some value
  | .absent => none
  | .mismatch _ => none

/-- What a date is given as: a point in time, or text that may name one. -/
inductive DateValue where
  | native (t : Timestamp)
  | text (s : String)
deriving DecidableEq

/-- Empty text counts as no value wherever text or a date is compared. -/
def isEmptyText (s : String) : Bool := s.isEmpty

/-- Zero and not-a-number count as no value wherever numbers are compared. -/
def isZeroOrNaN (x : Binary64) : Bool := x.isZero || x.isNaN

end Sieve
