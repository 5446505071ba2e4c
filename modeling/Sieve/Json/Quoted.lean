import Sieve.Json.Reader

/-!
Strings in JSON text, after their opening quote. An escape stands for one character; a character
past the first plane is a pair of escapes, and half a pair stands for nothing.
-/

namespace Sieve.Json.Reader

/-- The value of a hexadecimal digit. -/
def hexValue? (c : Char) : Option Nat :=
  if '0' ≤ c ∧ c ≤ '9' then some (c.toNat - 48)
  else if 'a' ≤ c ∧ c ≤ 'f' then some (c.toNat - 87)
  else if 'A' ≤ c ∧ c ≤ 'F' then some (c.toNat - 55)
  else none

/-- Four hexadecimal digits. They are taken as four bytes before they are looked at. -/
def hexCode : Reader Nat := fun cs =>
  match cs.take 4 |>.mapM hexValue? with
  | some [a, b, c, d] => .ok (((a * 16 + b) * 16 + c) * 16 + d, cs.drop 4)
  | _ =>
    let left := byteLength cs
    if left < 4 then .error (.here .endOfString []) else .error ⟨.invalidEscape, left - 4⟩

def isHighSurrogate (code : Nat) : Bool := 0xD800 ≤ code && code ≤ 0xDBFF

def isLowSurrogate (code : Nat) : Bool := 0xDC00 ≤ code && code ≤ 0xDFFF

/-- The character that a pair of surrogates stands for. -/
def pairedChar (high low : Nat) : Char :=
  Char.ofNat (0x10000 + (high - 0xD800) * 0x400 + (low - 0xDC00))

/-- The second escape of a pair. -/
def lowSurrogate (high : Nat) : Reader Char
  | [] => .error (.here .endOfString [])
  | ['\\'] => .error (.here .endOfString [])
  | '\\' :: 'u' :: cs => do
    let (low, rest) ← hexCode cs
    if isLowSurrogate low then pure (pairedChar high low, rest)
    else .error (.here .loneSurrogate rest)
  | '\\' :: cs => .error (.peek .brokenPair cs)
  | cs => .error (.peek .brokenPair cs)

/-- The character of an escape by code, after its letter. -/
def escapedCode : Reader Char := fun cs => do
  let (code, rest) ← hexCode cs
  if isLowSurrogate code then .error (.here .loneSurrogate rest)
  else if isHighSurrogate code then lowSurrogate code rest
  else pure (Char.ofNat code, rest)

/-- The character that a letter after a backslash stands for. -/
def escapedLetter? (c : Char) : Option Char :=
  match c with
  | '"' => some '"'
  | '\\' => some '\\'
  | '/' => some '/'
  | 'b' => some '\x08'
  | 'f' => some '\x0c'
  | 'n' => some '\n'
  | 'r' => some '\r'
  | 't' => some '\t'
  | _ => none

/-- The character of an escape, after its backslash. -/
def escaped : Reader Char
  | [] => .error (.here .endOfString [])
  | 'u' :: cs => escapedCode cs
  | c :: cs =>
    match escapedLetter? c with
    | some d => .ok (d, cs)
    | none => .error (.peek .invalidEscape (c :: cs))

/-- The next character of a string, or its closing quote. -/
def quotedChar : Reader (Option Char)
  | [] => .error (.here .endOfString [])
  | '"' :: cs => .ok (none, cs)
  | '\\' :: cs => do
    let (c, rest) ← escaped cs
    pure (some c, rest)
  | c :: cs =>
    if c.toNat < 0x20 then .error (.peek .controlCharacter (c :: cs)) else .ok (some c, cs)

/-- The rest of a string after its opening quote. -/
def quoted : Reader String := fun cs => do
  let (chars, rest) ← collect quotedChar [] cs
  pure (String.ofList chars, rest)

end Sieve.Json.Reader
