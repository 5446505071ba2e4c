import Sieve.Json.Read
import Sieve.Record.Basic

/-!
Records as JSON. A record is an object of scalars: text stays text even where it looks like a date,
and a null is no field. A field given more than once has its last value, null included. Written, a
date is its text, and a number that is not finite is null.
-/

namespace Sieve

open Json (Cause Fault Found Reader Stop)

namespace FieldValue

/-- The field value of a scalar, if it has one. -/
def ofFound? : Found → Option FieldValue
  | .bool b => some (.bool b)
  | .number n => some (.number n.toBinary64)
  | .string s => some (.text s)
  | .null => none
  | .sequence => none
  | .map => none

def ofJson (v : Json) : Except Fault FieldValue :=
  match ofFound? (Json.found v) with
  | some value => .ok value
  | none => .error ⟨.noScalar, none⟩

/-- Reads the text of one value. A text that holds no scalar is refused whatever follows it. -/
def ofText (text : String) : Except Fault FieldValue :=
  let cs := text.toList
  match Reader.value Json.bracketBudget cs with
  | .error stop => .error (stop.fault cs)
  | .ok (v, rest) =>
    match ofJson v, Json.endOfText rest with
    | .error fault, _ => .error fault
    | .ok _, .error stop => .error (stop.fault cs)
    | .ok value, .ok () => .ok value

def toJson : FieldValue → Json
  | .bool b => .bool b
  | .number x => .ofBinary64 x
  | .text s => .string s
  | .date t => .string t.render

end FieldValue

namespace Record

/-- The wanted shape, as the failures name it. -/
def wanted : String := "a map"

/-- The value of an entry; null is none. -/
def entryOfJson : Json → Except Fault (Option FieldValue)
  | .null => .ok none
  | v => (FieldValue.ofJson v).map some

/-- The record of entries in which a later one replaces an earlier one of its name. -/
def ofEntries (entries : List (String × Option FieldValue)) : Record :=
  let last := Assoc.ofList entries
  ofList (last.filterMap fun (name, value?) => value?.map fun value => (name, value))

/-- The text from which the place of a refused entry is counted: blanks and one closing brace after
it are passed. -/
def afterRefused (cs : List Char) : List Char :=
  match Json.skipBlanks cs with
  | '}' :: rest => rest
  | rest => rest

/-- Reads the value of an entry, brackets in it being open up to a budget. -/
def entryValue (budget : Nat) : Reader (Option FieldValue) := fun cs => do
  let (v, rest) ← Reader.value budget cs
  match entryOfJson v with
  | .ok value? => pure (value?, rest)
  | .error fault => .error (.here fault.cause (afterRefused rest))

/-- Reads a record in which so many brackets may be open at once. -/
def reader (budget : Nat) : Reader Record := fun cs => do
  match ← Reader.scalar cs with
  | (.map, rest) =>
    match budget with
    | 0 => .error (.peek .tooDeep rest)
    | inner + 1 => do
      let (entries, rest) ← Reader.members (entryValue inner) rest.tail
      pure (ofEntries entries, rest)
  | (other, rest) => .error (.here (.wrongType other wanted) rest)

/-- Reads the text of a record. -/
def ofText (text : String) : Except Fault Record := (reader Json.bracketBudget).run text

/-- Reads a list of records in which so many brackets may be open at once. -/
def listReader (budget : Nat) : Reader (List Record) := fun cs => do
  match ← Reader.scalar cs with
  | (.sequence, rest) =>
    match budget with
    | 0 => .error (.peek .tooDeep rest)
    | inner + 1 => Reader.items (reader inner) rest.tail
  | (other, rest) => .error (.here (.wrongType other "a sequence") rest)

/-- Reads the text of a list of records. -/
def listOfText (text : String) : Except Fault (List Record) :=
  (listReader Json.bracketBudget).run text

def entriesOfMembers : List (String × Json) → Except Fault (List (String × Option FieldValue))
  | [] => .ok []
  | (name, v) :: rest => do
    let value? ← entryOfJson v
    let entries ← entriesOfMembers rest
    pure ((name, value?) :: entries)

/-- Takes a record from a value. -/
def ofJson : Json → Except Fault Record
  | .object members => (entriesOfMembers members).map ofEntries
  | other => .error ⟨.wrongType (Json.found other) wanted, none⟩

def toJson (r : Record) : Json := .object (r.fields.map fun (name, value) => (name, value.toJson))

/-- The compact text of a record, its names in order. -/
def render (r : Record) : String := r.toJson.render

end Record

end Sieve
