import Sieve.Assoc
import Sieve.Record.Value

/-!
Flat records. A record holds one value under each of its names; the names stand in order, so two
records that hold the same values under the same names are the same record however they were
written. A field is read as one kind of value and never turned into another.
-/

namespace Sieve

structure Record where
  fields : List (String × FieldValue)
  sorted : Assoc.Sorted fields

namespace Record

def empty : Record := ⟨[], List.Pairwise.nil⟩

/-- The last value of every name. -/
def ofList (entries : List (String × FieldValue)) : Record :=
  ⟨Assoc.ofList entries, Assoc.sorted_ofList entries⟩

def get? (r : Record) (name : String) : Option FieldValue := r.fields.lookup name

/-- Sets a field, over its old value if it has one. -/
def insert (r : Record) (name : String) (value : FieldValue) : Record :=
  ⟨Assoc.insert name value r.fields, Assoc.sorted_insert name value r.sorted⟩

/-- Sets a field, and gives the value that it held. -/
def exchange (r : Record) (name : String) (value : FieldValue) : Option FieldValue × Record :=
  let done := Assoc.exchange name value r.fields
  (done.1,
    ⟨done.2, Assoc.exchange_snd name value r.fields ▸ Assoc.sorted_insert name value r.sorted⟩)

def size (r : Record) : Nat := r.fields.length

def isEmpty (r : Record) : Bool := r.fields.isEmpty

/-- The same names with the same values, by `FieldValue.same`. -/
def same (r s : Record) : Bool := go r.fields s.fields
where
  go : List (String × FieldValue) → List (String × FieldValue) → Bool
    | [], [] => true
    | (a, x) :: xs, (b, y) :: ys => a == b && x.same y && go xs ys
    | _, _ => false

/-- Reads a field as text. -/
def text (r : Record) (name : String) : FieldAccess String :=
  match r.get? name with
  | none => .absent
  | some (.text s) => .present s
  | some other => .mismatch other.kind

/-- Reads a field as a number. -/
def number (r : Record) (name : String) : FieldAccess Binary64 :=
  match r.get? name with
  | none => .absent
  | some (.number x) => .present x
  | some other => .mismatch other.kind

/-- Reads a field as a boolean. -/
def bool (r : Record) (name : String) : FieldAccess Bool :=
  match r.get? name with
  | none => .absent
  | some (.bool b) => .present b
  | some other => .mismatch other.kind

/-- Reads a field as a date, which may be given as text. -/
def date (r : Record) (name : String) : FieldAccess DateValue :=
  match r.get? name with
  | none => .absent
  | some (.date t) => .present (.native t)
  | some (.text s) => .present (.text s)
  | some other => .mismatch other.kind

end Record

end Sieve
