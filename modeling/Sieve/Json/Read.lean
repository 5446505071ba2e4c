import Sieve.Json.Quoted
import Sieve.Json.Numeral

/-!
Reading of JSON values from text. Lists and objects are read by the reader of their parts, so the
bodies serve every shape of data. A value may hold so many open brackets at once and no more.
-/

namespace Sieve.Json

/-- The most brackets a text may have open at once. -/
def bracketBudget : Nat := 127

namespace Reader

variable {α : Type}

/-- The next item of a list after its first, or the end of the list. -/
def nextItem (item : Reader α) : Reader (Option α) := fun cs =>
  match skipBlanks cs with
  | [] => .error (.peek .endOfList [])
  | ']' :: rest => .ok (none, rest)
  | ',' :: rest =>
    match skipBlanks rest with
    | [] => .error (.peek .endOfValue [])
    | ']' :: rest => .error (.peek .trailingComma (']' :: rest))
    | rest => do
      let (a, rest) ← item rest
      pure (some a, rest)
  | rest => .error (.peek .expectedListEnd rest)

/-- The rest of a list after its opening bracket. -/
def items (item : Reader α) : Reader (List α) := fun cs =>
  match skipBlanks cs with
  | [] => .error (.peek .endOfList [])
  | ']' :: rest => .ok ([], rest)
  | rest => do
    let (a, rest) ← item rest
    collect (nextItem item) [a] rest

/-- The colon after a name. -/
def colon : Reader Unit := fun cs =>
  match skipBlanks cs with
  | [] => .error (.peek .endOfObject [])
  | ':' :: rest => .ok ((), rest)
  | rest => .error (.peek .expectedColon rest)

/-- A member of an object, after the opening quote of its name. -/
def member (value : Reader α) : Reader (String × α) := fun cs => do
  let (name, rest) ← quoted cs
  let ((), rest) ← colon rest
  let (a, rest) ← value rest
  pure ((name, a), rest)

/-- The opening quote of the name of a member after the first, or the end of the object. -/
def nextName : Reader (Option Unit) := fun cs =>
  match skipBlanks cs with
  | [] => .error (.peek .endOfObject [])
  | '}' :: rest => .ok (none, rest)
  | ',' :: rest =>
    match skipBlanks rest with
    | [] => .error (.peek .endOfValue [])
    | '"' :: rest => .ok (some (), rest)
    | '}' :: rest => .error (.peek .trailingComma ('}' :: rest))
    | rest => .error (.peek .keyNotString rest)
  | rest => .error (.peek .expectedObjectEnd rest)

/-- The opening quote of the name of the first member, or the end of the object. -/
def firstName : Reader (Option Unit) := fun cs =>
  match skipBlanks cs with
  | [] => .error (.peek .endOfObject [])
  | '}' :: rest => .ok (none, rest)
  | '"' :: rest => .ok (some (), rest)
  | rest => .error (.peek .keyNotString rest)

/-- The next member of an object after its first, or the end of the object. -/
def nextMember (value : Reader α) : Reader (Option (String × α)) := fun cs => do
  match ← nextName cs with
  | (none, rest) => pure (none, rest)
  | (some (), rest) => do
    let (entry, rest) ← member value rest
    pure (some entry, rest)

/-- The rest of an object after its opening brace: its members as they stand there. -/
def members (value : Reader α) : Reader (List (String × α)) := fun cs => do
  match ← firstName cs with
  | (none, rest) => pure ([], rest)
  | (some (), rest) => do
    let (entry, rest) ← member value rest
    collect (nextMember value) [entry] rest

/-- A value without brackets, or the bracket that opens one. The bracket stays in the rest. -/
def scalar : Reader Found := fun cs =>
  match skipBlanks cs with
  | [] => .error (.peek .endOfValue [])
  | 'n' :: rest => do
    let ((), rest) ← word "ull".toList rest
    pure (.null, rest)
  | 't' :: rest => do
    let ((), rest) ← word "rue".toList rest
    pure (.bool true, rest)
  | 'f' :: rest => do
    let ((), rest) ← word "alse".toList rest
    pure (.bool false, rest)
  | '"' :: rest => do
    let (s, rest) ← quoted rest
    pure (.string s, rest)
  | '[' :: rest => .ok (.sequence, '[' :: rest)
  | '{' :: rest => .ok (.map, '{' :: rest)
  | c :: rest =>
    if c == '-' || c.isDigit then do
      let (n, rest) ← number (c :: rest)
      pure (.number n, rest)
    else .error (.peek .expectedValue (c :: rest))

/-- A value whose items and members are read by `inner`, if a bracket may still be opened. -/
def valueWith (inner : Option (Reader Json)) : Reader Json := fun cs => do
  match ← scalar cs with
  | (.null, rest) => pure (.null, rest)
  | (.bool b, rest) => pure (.bool b, rest)
  | (.number n, rest) => pure (.number n, rest)
  | (.string s, rest) => pure (.string s, rest)
  | (.sequence, rest) =>
    match inner with
    | none => .error (.peek .tooDeep rest)
    | some inner => do
      let (values, rest) ← items inner rest.tail
      pure (.array values, rest)
  | (.map, rest) =>
    match inner with
    | none => .error (.peek .tooDeep rest)
    | some inner => do
      let (entries, rest) ← members inner rest.tail
      pure (ofMembers entries, rest)

/-- A value in which so many brackets may be open at once. -/
def value : Nat → Reader Json
  | 0 => valueWith none
  | budget + 1 => valueWith (some (value budget))

end Reader

/-- Reads the text of a value. -/
def ofText (text : String) : Except Fault Json := (Reader.value bracketBudget).run text

end Sieve.Json
