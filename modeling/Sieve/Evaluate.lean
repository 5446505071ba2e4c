import Sieve.Filter.Basic
import Sieve.Instant.Layout
import Sieve.Options.Basic
import Sieve.Record.Basic

/-!
Evaluation of filters on records. It never fails: a field that is missing or has no value, a field
of another kind, a date that names no point in time, a node that was not decoded and a node below
the depth budget give the verdict false, and all but the first log why. A combinator stops at the
first child that settles it.
-/

namespace Sieve

namespace Leaf

/-- The value of a field, if it is of the wanted kind. -/
def valueOf {α : Type} (field : String) (wanted : LeafKind) (access : FieldAccess α) :
    Logged (Option α) :=
  match access with
  | .present value => pure (some value)
  | .absent => pure none
  | .mismatch actual => do
    Logged.emit (.kindMismatch field wanted actual)
    pure none

/-- The instant of a date, date-times without an offset being taken at the configured one. -/
def instantOf (offset : UtcOffset) : DateValue → Instant
  | .native t => .ofTimestamp t
  | .text s => .parse s offset

def isEmptyDate : DateValue → Bool
  | .native _ => false
  | .text s => isEmptyText s

def runString (c : Comparison StringOperation String) (r : Record) : Logged Bool := do
  match ← valueOf c.field .string (r.text c.field) with
  | none => pure false
  | some value => pure (!isEmptyText value && c.operation.holds value c.literal)

def runNumber (c : Comparison NumberOperation Binary64) (r : Record) : Logged Bool := do
  match ← valueOf c.field .number (r.number c.field) with
  | none => pure false
  | some value => pure (!isZeroOrNaN value && c.operation.holds value c.literal)

def runBoolean (c : Comparison BooleanOperation Bool) (r : Record) : Logged Bool := do
  match ← valueOf c.field .boolean (r.bool c.field) with
  | none => pure false
  | some value => pure (c.operation.holds value c.literal)

def runDate (offset : UtcOffset) (c : Comparison DateOperation DateValue) (r : Record) :
    Logged Bool := do
  match ← valueOf c.field .date (r.date c.field) with
  | none => pure false
  | some value =>
    if isEmptyDate value then pure false
    else
      let instant := instantOf offset value
      let literal := instantOf offset c.literal
      if !instant.isValid || !literal.isValid then
        Logged.emit (.invalidInstant c.field instant.isValid literal.isValid)
      pure (c.operation.holds instant literal)

def run (offset : UtcOffset) (l : Leaf) (r : Record) : Logged Bool :=
  match l with
  | .string c => runString c r
  | .number c => runNumber c r
  | .boolean c => runBoolean c r
  | .date c => runDate offset c r

end Leaf

/-- The level lies below the depth budget. -/
def Options.exceeded? (o : Options) (level : Nat) : Option Nat :=
  match o.maxDepth with
  | some depth => if depth.toNat < level then some depth.toNat else none
  | none => none

namespace Filter

mutual

/-- The verdict of a node at a level, the root being level 1. -/
def run (o : Options) (r : Record) (level : Nat) (f : Filter) : Logged Bool :=
  match o.exceeded? level with
  | some budget => do
    Logged.emit (.tooDeep level budget)
    pure false
  | none =>
    match f with
    | .leaf l => l.run o.naiveOffset r
    | .combine c children => runUntil o r (level + 1) c.deciding children
    | .unsupported reason _ => do
      Logged.emit (.nodeFails reason)
      pure false
termination_by structural f

/-- The deciding verdict if a child has it, with no later child looked at, and else the other
verdict. -/
def runUntil (o : Options) (r : Record) (level : Nat) (deciding : Bool) (children : List Filter) :
    Logged Bool :=
  match children with
  | [] => pure (!deciding)
  | f :: rest => do
    let verdict ← run o r level f
    if verdict = deciding then pure verdict else runUntil o r level deciding rest
termination_by structural children

end

/-- The verdict on a record. -/
def accepts (f : Filter) (o : Options) (r : Record) : Bool := (f.run o r 1).value

/-- The verdict with the default options. -/
def evaluate (f : Filter) (r : Record) : Bool := f.accepts .default r

/-- The verdicts on records in turn, and what they log. -/
def verdicts (f : Filter) (o : Options) : List Record → Logged (List Bool)
  | [] => pure []
  | r :: rest => do
    let verdict ← f.run o r 1
    let later ← verdicts f o rest
    pure (verdict :: later)

/-- The positions of true verdicts. -/
def positions (verdicts : List Bool) : List Nat := (verdicts.zipIdx.filter (·.1)).map (·.2)

/-- The positions of the records that match, in order, and what choosing them logs. -/
def selectLogged (f : Filter) (o : Options) (records : List Record) : Logged (List Nat) := do
  let verdicts ← f.verdicts o records
  let kept := positions verdicts
  Logged.emit (.filtered records.length kept.length)
  pure kept

/-- The positions of the records that match, in order. -/
def select (f : Filter) (o : Options) (records : List Record) : List Nat :=
  (f.selectLogged o records).value

/-- The records that match, in order, and what the evaluation of all of them logs. -/
def keepLogged (f : Filter) (o : Options) (records : List Record) : Logged (List Record) := do
  let verdicts ← f.verdicts o records
  pure (((records.zip verdicts).filter (·.2)).map (·.1))

/-- The records that match, in order. -/
def keep (f : Filter) (o : Options) (records : List Record) : List Record :=
  (f.keepLogged o records).value

/-- The positions of the records that match with the default options. -/
def selectMessages (f : Filter) (records : List Record) : List Nat := f.select .default records

end Filter

end Sieve
