import Sieve.Assoc
import Sieve.Binary64.Rounding

/-!
JSON values. A number is a whole number of at most sixty-four bits or a finite binary64 number, and
the two never equal each other. An object lists its members in the order of their names.
-/

namespace Sieve

/-- A JSON number. -/
inductive Json.Number where
  | whole (i : Int) (above : -9223372036854775808 ≤ i) (below : i < 18446744073709551616)
  | binary (x : Binary64) (finite : x.isFinite = true)
deriving DecidableEq

/-- A JSON value. -/
inductive Json where
  | null
  | bool (b : Bool)
  | number (n : Json.Number)
  | string (s : String)
  | array (items : List Json)
  | object (members : List (String × Json))

namespace Json

/-- The binary64 number nearest to a JSON number. -/
def Number.toBinary64 : Number → Binary64
  | .whole i _ _ => .ofInt i
  | .binary x _ => x

/-- Binary64 numbers compare by value here, so the zeros are the same number. -/
def Number.same : Number → Number → Bool
  | .whole i _ _, .whole j _ _ => i == j
  | .binary x _, .binary y _ => x.same y
  | _, _ => false

/-- What a JSON value is, without what it holds. -/
inductive Kind where
  | null | boolean | number | string | array | object
deriving DecidableEq

def Kind.phrase : Kind → String
  | .null => "null"
  | .boolean => "a boolean"
  | .number => "a number"
  | .string => "a string"
  | .array => "an array"
  | .object => "an object"

def kind : Json → Kind
  | .null => .null
  | .bool _ => .boolean
  | .number _ => .number
  | .string _ => .string
  | .array _ => .array
  | .object _ => .object

/-- The object that holds the last value of every name. -/
def ofMembers (members : List (String × Json)) : Json := .object (Assoc.ofList members)

/-- A binary64 number as JSON; there is no number for what is not finite. -/
def ofBinary64 (x : Binary64) : Json :=
  if h : x.isFinite = true then .number (.binary x h) else .null

mutual

/-- Equality of values, numbers by `Number.same`. -/
def same : Json → Json → Bool
  | .null, .null => true
  | .bool a, .bool b => a == b
  | .number m, .number n => m.same n
  | .string s, .string t => s == t
  | .array xs, .array ys => sameItems xs ys
  | .object xs, .object ys => sameMembers xs ys
  | _, _ => false
termination_by structural v => v

def sameItems : List Json → List Json → Bool
  | [], [] => true
  | x :: xs, y :: ys => same x y && sameItems xs ys
  | _, _ => false
termination_by structural xs => xs

def sameMembers : List (String × Json) → List (String × Json) → Bool
  | [], [] => true
  | (a, x) :: xs, (b, y) :: ys => a == b && same x y && sameMembers xs ys
  | _, _ => false
termination_by structural xs => xs

end

end Json

end Sieve
