import Sieve.Json.Read

/-!
Passing over a value without keeping it. Brackets may be open to any depth, a number may be of any
size and an escape may be half a pair. Where the text ends early or a comma has nothing after it,
the failure is that of the part which should stand there.
-/

namespace Sieve.Json.Reader

/-- An escape of a passed string, after its backslash. -/
def skipEscaped : Reader Unit
  | [] => .error (.here .endOfString [])
  | 'u' :: cs => do
    let (_, rest) ← hexCode cs
    pure ((), rest)
  | c :: cs =>
    if (escapedLetter? c).isSome then .ok ((), cs) else .error (.peek .invalidEscape (c :: cs))

/-- The next character of a passed string, or its closing quote. -/
def skipQuotedChar : Reader (Option Unit)
  | [] => .error (.here .endOfString [])
  | '"' :: cs => .ok (none, cs)
  | '\\' :: cs => do
    let ((), rest) ← skipEscaped cs
    pure (some (), rest)
  | c :: cs =>
    if c.toNat < 0x20 then .error (.here .controlCharacter (c :: cs)) else .ok (some (), cs)

def skipQuoted : Reader Unit := fun cs => do
  let (_, rest) ← collect skipQuotedChar [] cs
  pure ((), rest)

/-- The next item of a passed list, or its end. -/
def skipNextItem (item : Reader Unit) : Reader (Option Unit) := fun cs =>
  match skipBlanks cs with
  | [] => .error (.peek .endOfList [])
  | ']' :: rest => .ok (none, rest)
  | ',' :: rest => do
    let ((), rest) ← item rest
    pure (some (), rest)
  | rest => .error (.peek .expectedListEnd rest)

def skipItems (item : Reader Unit) : Reader Unit := fun cs =>
  match skipBlanks cs with
  | [] => .error (.peek .endOfList [])
  | ']' :: rest => .ok ((), rest)
  | rest => do
    let ((), rest) ← item rest
    let (_, rest) ← collect (skipNextItem item) [] rest
    pure ((), rest)

/-- A member of a passed object. -/
def skipMember (value : Reader Unit) : Reader Unit := fun cs =>
  match skipBlanks cs with
  | [] => .error (.peek .endOfObject [])
  | '"' :: rest => do
    let ((), rest) ← skipQuoted rest
    let ((), rest) ← colon rest
    value rest
  | rest => .error (.peek .keyNotString rest)

/-- The next member of a passed object, or its end. -/
def skipNextMember (value : Reader Unit) : Reader (Option Unit) := fun cs =>
  match skipBlanks cs with
  | [] => .error (.peek .endOfObject [])
  | '}' :: rest => .ok (none, rest)
  | ',' :: rest => do
    let ((), rest) ← skipMember value rest
    pure (some (), rest)
  | rest => .error (.peek .expectedObjectEnd rest)

def skipMembers (value : Reader Unit) : Reader Unit := fun cs =>
  match skipBlanks cs with
  | [] => .error (.peek .endOfObject [])
  | '}' :: rest => .ok ((), rest)
  | rest => do
    let ((), rest) ← skipMember value rest
    let (_, rest) ← collect (skipNextMember value) [] rest
    pure ((), rest)

/-- A passed value whose parts are passed by `inner`. -/
def skipWith (inner : Reader Unit) : Reader Unit := fun cs =>
  match skipBlanks cs with
  | [] => .error (.peek .endOfValue [])
  | 'n' :: rest => word "ull".toList rest
  | 't' :: rest => word "rue".toList rest
  | 'f' :: rest => word "alse".toList rest
  | '"' :: rest => skipQuoted rest
  | '[' :: rest => skipItems inner rest
  | '{' :: rest => skipMembers inner rest
  | c :: rest =>
    if c == '-' || c.isDigit then do
      let (_, rest) ← numeral .invalidNumber (c :: rest)
      pure ((), rest)
    else .error (.peek .expectedValue (c :: rest))

/-- Passes over a value with brackets nested up to a depth. -/
def skipWithin : Nat → Reader Unit
  | 0 => fun cs => .error (.here .tooDeep cs)
  | depth + 1 => skipWith (skipWithin depth)

/-- Passes over a value. Every open bracket takes a character, so brackets are nested no deeper than
the text is long. -/
def skip : Reader Unit := fun cs => skipWithin (cs.length + 1) cs

end Sieve.Json.Reader
