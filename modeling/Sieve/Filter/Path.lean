import Sieve.Decimal.Style
import Sieve.Filter.Basic

/-!
The first node of a filter that could not be decoded, and the way to it. A path lists the index of a
child at every level from the root down.
-/

namespace Sieve

abbrev Path : Type := List Nat

/-- A path from the root `$`. -/
def Path.write (path : Path) : List Char :=
  '$' :: path.flatMap fun index => ".filters[".toList ++ Decimal.digits index ++ [']']

def Path.render (path : Path) : String := String.ofList path.write

namespace Filter

mutual

/-- The path to the first unsupported node, a node coming before its children, and its reason. -/
def firstUnsupported? : Filter → Option (Path × String)
  | .combine _ children => firstUnsupportedOf? 0 children
  | .leaf _ => none
  | .unsupported reason _ => some ([], reason)
termination_by structural f => f

/-- The same among children, the first of which has this index. -/
def firstUnsupportedOf? (index : Nat) : List Filter → Option (Path × String)
  | [] => none
  | f :: rest =>
    match firstUnsupported? f with
    | some (path, reason) => some (index :: path, reason)
    | none => firstUnsupportedOf? (index + 1) rest
termination_by structural fs => fs

end

end Filter

end Sieve
