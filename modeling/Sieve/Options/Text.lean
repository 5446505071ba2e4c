import Sieve.Json.Skip
import Sieve.Options.Basic

/-!
Options as JSON. They are an object with two keys, both of which may be left out, among any others;
or a list of the two values in order, of which the last ones may be left out. A key may stand once
only. Where text is read, the values of other keys are passed over without being kept.
-/

namespace Sieve.Options

open Json (Cause Fault Found Reader Stop)

def depthKey : String := "max_depth"

def offsetKey : String := "naive_utc_offset_minutes"

/-- The wanted shape, as the failures name it. -/
def wanted : String := "struct EvaluatorOptions"

/-- A depth is a whole number of up to sixty-four bits, or null for none. -/
def depthOf : Found → Except Cause (Option UInt64)
  | .null => .ok none
  | .number (.whole i above below) =>
    if 0 ≤ i then .ok (some (UInt64.ofNat i.toNat))
    else .error (.wrongValue (.number (.whole i above below)) "usize")
  | other => .error (.wrongType other "usize")

/-- An offset is a whole number of up to thirty-two bits with its sign. -/
def offsetOf : Found → Except Cause Int32
  | .number (.whole i above below) =>
    if -2147483648 ≤ i ∧ i < 2147483648 then .ok (Int32.ofInt i)
    else .error (.wrongValue (.number (.whole i above below)) "i32")
  | other => .error (.wrongType other "i32")

/-- Reads a scalar of some meaning. -/
def field {α : Type} (meaning : Found → Except Cause α) : Reader α := fun cs => do
  let (found, rest) ← Reader.scalar cs
  match meaning found with
  | .ok a => pure (a, rest)
  | .error cause => .error (.here cause rest)

/-- The keys read so far. -/
structure Draft where
  depth : Option (Option UInt64)
  offset : Option Int32

def Draft.empty : Draft := ⟨none, none⟩

/-- What is left out takes its default. -/
def Draft.finish (d : Draft) : Options := ⟨d.depth.getD none, d.offset.getD 0⟩

/-- A repeated key, placed after the blanks and the one closing brace that may follow it. -/
def repeated (name : String) (cs : List Char) : Stop :=
  let rest := match Json.skipBlanks cs with
    | '}' :: rest => rest
    | rest => rest
  .here (.repeatedField name) rest

/-- A member, after the opening quote of its name. -/
def member (d : Draft) : Reader Draft := fun cs => do
  let (name, rest) ← Reader.quoted cs
  if name = depthKey then
    if d.depth.isSome then .error (repeated name rest)
    else do
      let ((), rest) ← Reader.colon rest
      let (depth, rest) ← field depthOf rest
      pure ({ d with depth := some depth }, rest)
  else if name = offsetKey then
    if d.offset.isSome then .error (repeated name rest)
    else do
      let ((), rest) ← Reader.colon rest
      let (offset, rest) ← field offsetOf rest
      pure ({ d with offset := some offset }, rest)
  else do
    let ((), rest) ← Reader.colon rest
    let ((), rest) ← Reader.skip rest
    pure (d, rest)

/-- The members of an object from one on whose opening quote was passed. Each takes a character, so
as many rounds as there are characters are enough. -/
def members : Nat → Draft → Reader Draft
  | 0, _, cs => .error (.here .endOfObject cs)
  | rounds + 1, d, cs => do
    let (d, rest) ← member d cs
    match ← Reader.nextName rest with
    | (none, rest) => pure (d, rest)
    | (some (), rest) => members rounds d rest

def object : Reader Options := fun cs => do
  match ← Reader.firstName cs with
  | (none, rest) => pure (Draft.empty.finish, rest)
  | (some (), rest) => do
    let (d, rest) ← members (rest.length + 1) .empty rest
    pure (d.finish, rest)

/-- The end of a list that holds no more values. -/
def listEnd : Reader Unit := fun cs =>
  match Json.skipBlanks cs with
  | [] => .error (.peek .endOfList [])
  | ']' :: rest => .ok ((), rest)
  | ',' :: rest =>
    match Json.skipBlanks rest with
    | ']' :: rest => .error (.peek .trailingComma (']' :: rest))
    | rest => .error (.peek .trailingText rest)
  | rest => .error (.peek .trailingText rest)

/-- The two values of a list, as far as they are there. -/
def list : Reader Options := fun cs => do
  match ← firstItem (field depthOf) cs with
  | (none, rest) => pure (.default, rest)
  | (some depth, rest) =>
    match ← Reader.nextItem (field offsetOf) rest with
    | (none, rest) => pure (⟨depth, 0⟩, rest)
    | (some offset, rest) => do
      let ((), rest) ← listEnd rest
      pure (⟨depth, offset⟩, rest)
where
  /-- The first item of a list, or its end. -/
  firstItem {α : Type} (item : Reader α) : Reader (Option α) := fun cs =>
    match Json.skipBlanks cs with
    | [] => .error (.peek .endOfList [])
    | ']' :: rest => .ok (none, rest)
    | rest => do
      let (a, rest) ← item rest
      pure (some a, rest)

def reader : Reader Options := fun cs => do
  match ← Reader.scalar cs with
  | (.map, rest) => object rest.tail
  | (.sequence, rest) => list rest.tail
  | (other, rest) => .error (.here (.wrongType other wanted) rest)

/-- Reads the text of options. -/
def ofText (text : String) : Except Fault Options := reader.run text

/-- A failure found in a value has no place. -/
def unplaced {α : Type} : Except Cause α → Except Fault α :=
  Except.mapError fun cause => ⟨cause, none⟩

/-- Takes options from the members of an object. -/
def ofMembers (members : List (String × Json)) : Except Fault Options := do
  let depth ← match members.lookup depthKey with
    | some v => unplaced (depthOf (Json.found v))
    | none => pure none
  let offset ← match members.lookup offsetKey with
    | some v => unplaced (offsetOf (Json.found v))
    | none => pure 0
  pure ⟨depth, offset⟩

/-- Takes options from a value. -/
def ofJson : Json → Except Fault Options
  | .object members => ofMembers members
  | .array [] => .ok .default
  | .array [depth] => do
    let depth ← unplaced (depthOf (Json.found depth))
    pure ⟨depth, 0⟩
  | .array (depth :: offset :: more) => do
    let depth ← unplaced (depthOf (Json.found depth))
    let offset ← unplaced (offsetOf (Json.found offset))
    if more.isEmpty then pure ⟨depth, offset⟩
    else .error ⟨.wrongLength (more.length + 2) "fewer elements in array", none⟩
  | other => .error ⟨.wrongType (Json.found other) wanted, none⟩

/-- The compact text of options; no depth is written where there is none. -/
def write (o : Options) : List Char :=
  let offset := Json.writeMember offsetKey (Decimal.wholeDigits o.naiveOffsetMinutes.toInt)
  Json.bracket '{' '}' <| match o.maxDepth with
    | some depth => [Json.writeMember depthKey (Decimal.digits depth.toNat), offset]
    | none => [offset]

def render (o : Options) : String := String.ofList o.write

end Sieve.Options
