import Sieve.Decimal.Style
import Sieve.Json.Basic

/-!
Compact JSON text. A string escapes quotes, backslashes and the characters below the space, and
nothing else. Binary64 numbers are written by their shortest decimal.
-/

namespace Sieve.Json

/-- From a hundred-thousandth up to ten quadrillions a number is written plainly. -/
def numberStyle : Decimal.Style := ⟨-5, 15⟩

def writeBinary64 (x : Binary64) : List Char :=
  let text := x.shortest.write numberStyle
  if x.isNegative then '-' :: text else text

def Number.write : Number → List Char
  | .whole i _ _ => Decimal.wholeDigits i
  | .binary x _ => writeBinary64 x

def hexDigit (n : Nat) : Char := Nat.digitChar n

/-- A character as it stands inside quotes. -/
def escape (c : Char) : List Char :=
  match c with
  | '"' => ['\\', '"']
  | '\\' => ['\\', '\\']
  | '\x08' => ['\\', 'b']
  | '\x0c' => ['\\', 'f']
  | '\n' => ['\\', 'n']
  | '\r' => ['\\', 'r']
  | '\t' => ['\\', 't']
  | _ =>
    if c.toNat < 0x20 then
      ['\\', 'u', '0', '0', hexDigit (c.toNat / 16), hexDigit (c.toNat % 16)]
    else [c]

def quote (s : List Char) : List Char := '"' :: (s.flatMap escape ++ ['"'])

def writeBool (b : Bool) : List Char := (if b then "true" else "false").toList

/-- Items that are text already, with commas between and brackets around. -/
def bracket (left right : Char) (items : List (List Char)) : List Char :=
  left :: (List.intercalate [','] items ++ [right])

/-- A member whose value is text already. -/
def writeMember (name : String) (value : List Char) : List Char :=
  quote name.toList ++ ':' :: value

mutual

/-- The compact text of a value, the members of an object in the order it lists them. -/
def write : Json → List Char
  | .null => "null".toList
  | .bool b => writeBool b
  | .number n => n.write
  | .string s => quote s.toList
  | .array items => bracket '[' ']' (writeItems items)
  | .object members => bracket '{' '}' (writeMembers members)
termination_by structural v => v

def writeItems : List Json → List (List Char)
  | [] => []
  | v :: rest => write v :: writeItems rest
termination_by structural items => items

def writeMembers : List (String × Json) → List (List Char)
  | [] => []
  | (name, v) :: rest => writeMember name (write v) :: writeMembers rest
termination_by structural members => members

end

def render (v : Json) : String := String.ofList v.write

end Sieve.Json
