import Sieve.Report
import Sieve.Instant.Basic
import Sieve.Text.Basic

/-!
The operations of each kind of leaf. Every operation has a name of its own within its kind, and says
of a field's value and a literal whether the comparison holds.
-/

namespace Sieve

/-- A closed set of named operations. -/
class Operation (α : Type) where
  /-- Every operation, in the order in which they are offered. -/
  all : List α
  name : α → String

/-- The operation with exactly this name. -/
def Operation.ofName? {α : Type} [Operation α] (name : String) : Option α :=
  (Operation.all : List α).find? fun operation => Operation.name operation == name

inductive StringOperation where
  | eq | startsWith | endsWith | contains
deriving DecidableEq

inductive NumberOperation where
  | eq | gt | lt | gte | lte
deriving DecidableEq

inductive BooleanOperation where
  | eq
deriving DecidableEq

inductive DateOperation where
  | eq | after | before
deriving DecidableEq

instance : Operation StringOperation where
  all := [.eq, .startsWith, .endsWith, .contains]
  name
    | .eq => "eq"
    | .startsWith => "startsWith"
    | .endsWith => "endsWith"
    | .contains => "contains"

instance : Operation NumberOperation where
  all := [.eq, .gt, .lt, .gte, .lte]
  name
    | .eq => "eq"
    | .gt => "gt"
    | .lt => "lt"
    | .gte => "gte"
    | .lte => "lte"

instance : Operation BooleanOperation where
  all := [.eq]
  name
    | .eq => "eq"

instance : Operation DateOperation where
  all := [.eq, .after, .before]
  name
    | .eq => "eq"
    | .after => "after"
    | .before => "before"

def StringOperation.holds (operation : StringOperation) (value literal : String) : Bool :=
  match operation with
  | .eq => value == literal
  | .startsWith => literal.toList.isPrefixOf value.toList
  | .endsWith => literal.toList.isSuffixOf value.toList
  | .contains => Text.occursIn literal.toList value.toList

def NumberOperation.holds (operation : NumberOperation) (value literal : Binary64) : Bool :=
  match operation with
  | .eq => value.same literal
  | .gt => literal.lt value
  | .lt => value.lt literal
  | .gte => literal.le value
  | .lte => value.le literal

def BooleanOperation.holds (operation : BooleanOperation) (value literal : Bool) : Bool :=
  match operation with
  | .eq => value == literal

def DateOperation.holds (operation : DateOperation) (value literal : Instant) : Bool :=
  match operation with
  | .eq => value.sameAs literal
  | .after => value.isAfter literal
  | .before => value.isBefore literal

end Sieve
