import Sieve.Filter.Rejection

/-!
Decoding of filters from JSON. A node is an object with a `type`; a leaf has a `field`, an
`operation` of its kind and a `value`, a combinator has `filters`, and other keys mean nothing. A
node that is none of these is kept as it came and logged, and takes neither its parent nor its
siblings with it.
-/

namespace Sieve

namespace Leaf

/-- A string under a key. -/
def stringUnder (key : String) (members : List (String × Json)) : Except Rejection String :=
  match members.lookup key with
  | some (.string s) => .ok s
  | some other => .error (.wrongKind key "a string" other.kind)
  | none => .error (.missing key)

def operationUnder {α : Type} [Operation α] (kind : LeafKind) (members : List (String × Json)) :
    Except Rejection α := do
  let name ← stringUnder "operation" members
  match Operation.ofName? name with
  | some operation => pure operation
  | none => .error (.unknownOperation name kind ((Operation.all : List α).map Operation.name))

/-- The literal under `value`. -/
def literalUnder {α : Type} (literal? : Json → Option α) (wanted : String)
    (members : List (String × Json)) : Except Rejection α :=
  match members.lookup "value" with
  | none => .error (.missing "value")
  | some v =>
    match literal? v with
    | some literal => .ok literal
    | none => .error (.wrongKind "value" wanted v.kind)

def stringLiteral? : Json → Option String
  | .string s => some s
  | _ => none

def numberLiteral? : Json → Option Binary64
  | .number n => some n.toBinary64
  | _ => none

def booleanLiteral? : Json → Option Bool
  | .bool b => some b
  | _ => none

/-- A date is only ever given as text. -/
def dateLiteral? : Json → Option DateValue
  | .string s => some (.text s)
  | _ => none

def comparison {Op Literal : Type} [Operation Op] (kind : LeafKind)
    (literal? : Json → Option Literal) (wanted : String) (members : List (String × Json)) :
    Except Rejection (Comparison Op Literal) := do
  let field ← stringUnder "field" members
  let operation ← operationUnder kind members
  let literal ← literalUnder literal? wanted members
  pure ⟨field, operation, literal⟩

/-- The leaf of a kind that the members of a node make. -/
def ofMembers (kind : LeafKind) (members : List (String × Json)) : Except Rejection Leaf :=
  match kind with
  | .string => (comparison .string stringLiteral? "a string" members).map .string
  | .number => (comparison .number numberLiteral? "a number" members).map .number
  | .boolean => (comparison .boolean booleanLiteral? "a boolean" members).map .boolean
  | .date => (comparison .date dateLiteral? "a date string" members).map .date

end Leaf

/-- What the members of a node make of it, its children apart. -/
inductive NodeShape where
  | leaf (l : Leaf)
  | combinator (c : Combinator)

namespace NodeShape

def kindUnder (members : List (String × Json)) : Except Rejection NodeKind := do
  let name ← Leaf.stringUnder "type" members
  match NodeKind.ofName? name with
  | some kind => pure kind
  | none => .error (.unknownType name)

/-- A combinator needs a list of children, whatever these are. -/
def childrenUnder (members : List (String × Json)) : Except Rejection (List Json) :=
  match members.lookup "filters" with
  | some (.array children) => .ok children
  | some other => .error (.wrongKind "filters" "an array" other.kind)
  | none => .error (.missing "filters")

def ofMembers (members : List (String × Json)) : Except Rejection NodeShape := do
  match ← kindUnder members with
  | .leaf kind => (Leaf.ofMembers kind members).map .leaf
  | .combinator c => (childrenUnder members).map fun _ => .combinator c

end NodeShape

namespace Filter

/-- Keeps a node that could not be decoded. -/
def reject (rejection : Rejection) (raw : Json) : Logged Filter := do
  Logged.emit (.nodeKept rejection.reason)
  pure (.unsupported rejection.reason raw)

mutual

/-- Decodes a node and all below it, logging the nodes it keeps undecoded. -/
def decode : Json → Logged Filter
  | .object members =>
    match NodeShape.ofMembers members with
    | .error rejection => reject rejection (.object members)
    | .ok (.leaf l) => pure (.leaf l)
    | .ok (.combinator c) => do
      let children ← decodeUnder members
      pure (.combine c children)
  | .null => reject (.notObject .null) .null
  | .bool b => reject (.notObject .boolean) (.bool b)
  | .number n => reject (.notObject .number) (.number n)
  | .string s => reject (.notObject .string) (.string s)
  | .array items => reject (.notObject .array) (.array items)
termination_by structural v => v

/-- Decodes the items of the value under `filters`. -/
def decodeUnder : List (String × Json) → Logged (List Filter)
  | [] => pure []
  | (key, v) :: rest => if key = "filters" then decodeItems v else decodeUnder rest
termination_by structural members => members

def decodeItems : Json → Logged (List Filter)
  | .array items => decodeAll items
  | _ => pure []
termination_by structural v => v

def decodeAll : List Json → Logged (List Filter)
  | [] => pure []
  | v :: rest => do
    let f ← decode v
    let fs ← decodeAll rest
    pure (f :: fs)
termination_by structural items => items

end

/-- The filter that a value decodes to. -/
def ofJson (v : Json) : Filter := (decode v).value

end Filter

end Sieve
