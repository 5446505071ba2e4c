import Sieve.Filter.Operation
import Sieve.Json.Basic

/-!
Filters. A leaf compares one field with a literal; a combinator joins any number of filters by `or`
or `and`; and a node that could not be decoded is kept with the reason and the JSON it came as.
-/

namespace Sieve

/-- A comparison of a field with a literal. -/
structure Comparison (Operation Literal : Type) where
  field : String
  operation : Operation
  literal : Literal
deriving DecidableEq

inductive Leaf where
  | string (c : Comparison StringOperation String)
  | number (c : Comparison NumberOperation Binary64)
  | boolean (c : Comparison BooleanOperation Bool)
  | date (c : Comparison DateOperation DateValue)
deriving DecidableEq

namespace Leaf

def kind : Leaf → LeafKind
  | .string _ => .string
  | .number _ => .number
  | .boolean _ => .boolean
  | .date _ => .date

def field : Leaf → String
  | .string c => c.field
  | .number c => c.field
  | .boolean c => c.field
  | .date c => c.field

def operationName : Leaf → String
  | .string c => Operation.name c.operation
  | .number c => Operation.name c.operation
  | .boolean c => Operation.name c.operation
  | .date c => Operation.name c.operation

/-- Equality of leaves, number literals as binary64 compares them. -/
def same : Leaf → Leaf → Bool
  | .string c, .string d => decide (c = d)
  | .number c, .number d =>
    c.field == d.field && decide (c.operation = d.operation) && c.literal.same d.literal
  | .boolean c, .boolean d => decide (c = d)
  | .date c, .date d => decide (c = d)
  | _, _ => false

end Leaf

inductive Combinator where
  | or | and
deriving DecidableEq

namespace Combinator

def name : Combinator → String
  | .or => "or"
  | .and => "and"

/-- The verdict of a child that settles the whole. -/
def deciding : Combinator → Bool
  | .or => true
  | .and => false

end Combinator

inductive Filter where
  | leaf (l : Leaf)
  | combine (c : Combinator) (children : List Filter)
  | unsupported (reason : String) (raw : Json)

namespace Filter

def string (field : String) (operation : StringOperation) (literal : String) : Filter :=
  .leaf (.string ⟨field, operation, literal⟩)

def number (field : String) (operation : NumberOperation) (literal : Binary64) : Filter :=
  .leaf (.number ⟨field, operation, literal⟩)

def boolean (field : String) (literal : Bool) : Filter := .leaf (.boolean ⟨field, .eq, literal⟩)

def date (field : String) (operation : DateOperation) (literal : DateValue) : Filter :=
  .leaf (.date ⟨field, operation, literal⟩)

def or (children : List Filter) : Filter := .combine .or children

def and (children : List Filter) : Filter := .combine .and children

def kindName : Filter → String
  | .leaf l => l.kind.name
  | .combine c _ => c.name
  | .unsupported _ _ => "unsupported"

/-- The field that a leaf compares. -/
def field? : Filter → Option String
  | .leaf l => some l.field
  | _ => none

mutual

/-- The number of nodes on the longest way down. -/
def depth : Filter → Nat
  | .combine _ children => 1 + greatestDepth children
  | .leaf _ => 1
  | .unsupported _ _ => 1
termination_by structural f => f

def greatestDepth : List Filter → Nat
  | [] => 0
  | f :: rest => max (depth f) (greatestDepth rest)
termination_by structural fs => fs

end

mutual

/-- Every node with its level, a node before its children and these in their order. -/
def nodes (level : Nat) : Filter → List (Nat × Filter)
  | .combine c children => (level, .combine c children) :: nodesOf (level + 1) children
  | .leaf l => [(level, .leaf l)]
  | .unsupported reason raw => [(level, .unsupported reason raw)]
termination_by structural f => f

def nodesOf (level : Nat) : List Filter → List (Nat × Filter)
  | [] => []
  | f :: rest => nodes level f ++ nodesOf level rest
termination_by structural fs => fs

end

mutual

/-- Every leaf, from the first to the last. -/
def leaves : Filter → List Leaf
  | .combine _ children => leavesOf children
  | .leaf l => [l]
  | .unsupported _ _ => []
termination_by structural f => f

def leavesOf : List Filter → List Leaf
  | [] => []
  | f :: rest => leaves f ++ leavesOf rest
termination_by structural fs => fs

end

/-- The fields that leaves compare, in order, each once. -/
def referencedFields (f : Filter) : List String :=
  (Assoc.ofList (f.leaves.map fun l => (l.field, ()))).map (·.1)

mutual

/-- Equality of trees, numbers as they compare. -/
def same : Filter → Filter → Bool
  | .leaf l, .leaf m => l.same m
  | .combine c fs, .combine d gs => decide (c = d) && sameAll fs gs
  | .unsupported r v, .unsupported s w => r == s && v.same w
  | _, _ => false
termination_by structural f => f

def sameAll : List Filter → List Filter → Bool
  | [], [] => true
  | f :: fs, g :: gs => same f g && sameAll fs gs
  | _, _ => false
termination_by structural fs => fs

end

end Filter

end Sieve
