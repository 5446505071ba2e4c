import Sieve.Json.Write
import Sieve.Text.Shown

/-!
Why JSON cannot be read, and where. A fault is found while reading a text or while taking a value
apart; only one found in a text has a place, counted in lines from 1 and in bytes of the line.
-/

namespace Sieve.Json

/-- What stood where something else was wanted. -/
inductive Found where
  | null
  | bool (b : Bool)
  | number (n : Number)
  | string (s : String)
  | sequence
  | map

def Found.phrase : Found → String
  | .null => "null"
  | .bool b => "boolean `" ++ String.ofList (writeBool b) ++ "`"
  | .number (.whole i above below) =>
    "integer `" ++ String.ofList (Number.whole i above below).write ++ "`"
  | .number (.binary x finite) =>
    "floating point `" ++ String.ofList (Number.binary x finite).write ++ "`"
  | .string s => "string " ++ Text.shown s
  | .sequence => "sequence"
  | .map => "map"

def found : Json → Found
  | .null => .null
  | .bool b => .bool b
  | .number n => .number n
  | .string s => .string s
  | .array _ => .sequence
  | .object _ => .map

/-- Why reading failed. -/
inductive Cause where
  | endOfValue | endOfList | endOfObject | endOfString
  | expectedValue | expectedWord | expectedColon | expectedListEnd | expectedObjectEnd
  | keyNotString | trailingComma | trailingText
  | controlCharacter | invalidEscape | loneSurrogate | brokenPair
  | invalidNumber | outOfRange | tooDeep
  | wrongType (found : Found) (wanted : String)
  | wrongValue (found : Found) (wanted : String)
  | wrongLength (length : Nat) (wanted : String)
  | repeatedField (name : String)
  | noScalar

/-- A number in a message. -/
def count (n : Nat) : String := String.ofList (Decimal.digits n)

def Cause.message : Cause → String
  | .endOfValue => "EOF while parsing a value"
  | .endOfList => "EOF while parsing a list"
  | .endOfObject => "EOF while parsing an object"
  | .endOfString => "EOF while parsing a string"
  | .expectedValue => "expected value"
  | .expectedWord => "expected ident"
  | .expectedColon => "expected `:`"
  | .expectedListEnd => "expected `,` or `]`"
  | .expectedObjectEnd => "expected `,` or `\x7d`"
  | .keyNotString => "key must be a string"
  | .trailingComma => "trailing comma"
  | .trailingText => "trailing characters"
  | .controlCharacter => "control character (\\u0000-\\u001F) found while parsing a string"
  | .invalidEscape => "invalid escape"
  | .loneSurrogate => "lone leading surrogate in hex escape"
  | .brokenPair => "unexpected end of hex escape"
  | .invalidNumber => "invalid number"
  | .outOfRange => "number out of range"
  | .tooDeep => "recursion limit exceeded"
  | .wrongType found wanted => "invalid type: " ++ found.phrase ++ ", expected " ++ wanted
  | .wrongValue found wanted => "invalid value: " ++ found.phrase ++ ", expected " ++ wanted
  | .wrongLength length wanted => "invalid length " ++ count length ++ ", expected " ++ wanted
  | .repeatedField name => "duplicate field `" ++ name ++ "`"
  | .noScalar => "data did not match any variant of untagged enum FieldValue"

/-- A place in a text. -/
structure Place where
  line : Nat
  column : Nat

/-- A failed reading. -/
structure Fault where
  cause : Cause
  place : Option Place

def Fault.message (fault : Fault) : String :=
  match fault.place with
  | none => fault.cause.message
  | some place =>
    fault.cause.message ++ " at line " ++ count place.line ++ " column " ++ count place.column

/-- The length of a text in bytes. -/
def byteLength (cs : List Char) : Nat := cs.foldl (fun n c => n + c.utf8Size) 0

/-- The place after so many bytes of a text. It may lie inside a character. -/
def Place.after (text : List Char) (bytes : Nat) : Place := go text bytes ⟨1, 0⟩
where
  go : List Char → Nat → Place → Place
    | _, 0, place => place
    | [], _, place => place
    | c :: cs, bytes, place =>
      if c = '\n' then go cs (bytes - 1) ⟨place.line + 1, 0⟩
      else go cs (bytes - c.utf8Size) ⟨place.line, place.column + min bytes c.utf8Size⟩

end Sieve.Json
