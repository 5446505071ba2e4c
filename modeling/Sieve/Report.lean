import Sieve.Decimal.Style
import Sieve.Record.Value

/-!
What the library reports: errors to its caller and events to a log. Filtering has no errors; they
come from reading JSON and from checking filters and options. A value may come with the events that
were logged while it was made.
-/

namespace Sieve

inductive FilterError where
  /-- The text is not JSON, or not JSON of the wanted shape. -/
  | invalidJson (message : String)
  /-- The node at a path could not be decoded. -/
  | unsupportedNode (path reason : String)
  /-- An offset is a day or more. -/
  | invalidOffset (minutes : Int32)
deriving DecidableEq

def FilterError.message : FilterError → String
  | .invalidJson message => "invalid JSON: " ++ message
  | .unsupportedNode path reason => "unsupported filter at " ++ path ++ ": " ++ reason
  | .invalidOffset minutes =>
    "invalid UTC offset: " ++ String.ofList (Decimal.wholeDigits minutes.toInt) ++
      " minutes (expected -1439..=1439)"

/-- The kinds of leaf, as their nodes name them. -/
inductive LeafKind where
  | string | number | boolean | date
deriving DecidableEq

def LeafKind.name : LeafKind → String
  | .string => "string"
  | .number => "number"
  | .boolean => "boolean"
  | .date => "date"

inductive Event where
  /-- A node could not be decoded and is kept as it came. -/
  | nodeKept (reason : String)
  /-- A node lies below the depth budget. -/
  | tooDeep (depth budget : Nat)
  /-- A node that could not be decoded is evaluated. -/
  | nodeFails (reason : String)
  /-- A leaf meets a field of another kind. -/
  | kindMismatch (field : String) (wanted : LeafKind) (actual : FieldKind)
  /-- A date leaf compares something that is no point in time. -/
  | invalidInstant (field : String) (fieldValid literalValid : Bool)
  /-- A list of records was filtered. -/
  | filtered (total matched : Nat)
deriving DecidableEq

namespace Event

inductive Level where
  | trace | debug
deriving DecidableEq

/-- A datum of an event. -/
inductive Datum where
  | text (s : String)
  | count (n : Nat)
  | flag (b : Bool)

def Level.name : Level → String
  | .trace => "TRACE"
  | .debug => "DEBUG"

def level : Event → Level
  | .filtered _ _ => .debug
  | _ => .trace

def message : Event → String
  | .nodeKept _ => "keeping unsupported filter node"
  | .tooDeep _ _ => "filter nesting exceeds depth budget"
  | .nodeFails _ => "unsupported filter evaluates to false"
  | .kindMismatch _ _ _ => "field kind does not match filter kind"
  | .invalidInstant _ _ _ => "date comparison against invalid instant"
  | .filtered _ _ => "filtered records"

def data : Event → List (String × Datum)
  | .nodeKept reason => [("reason", .text reason)]
  | .tooDeep depth budget => [("depth", .count depth), ("max_depth", .count budget)]
  | .nodeFails reason => [("reason", .text reason)]
  | .kindMismatch field wanted actual =>
    [("field", .text field), ("expected", .text wanted.name), ("actual", .text actual.name)]
  | .invalidInstant field fieldValid literalValid =>
    [("field", .text field), ("field_valid", .flag fieldValid),
      ("literal_valid", .flag literalValid)]
  | .filtered total matched => [("total", .count total), ("matched", .count matched)]

end Event

/-- A value, and the events logged while it was made, the first one first. -/
structure Logged (α : Type) where
  value : α
  events : List Event

namespace Logged

variable {α β : Type}

instance : Monad Logged where
  pure a := ⟨a, []⟩
  bind x f :=
    let y := f x.value
    ⟨y.value, x.events ++ y.events⟩

/-- Logs an event. -/
def emit (event : Event) : Logged Unit := ⟨(), [event]⟩

end Logged

end Sieve
