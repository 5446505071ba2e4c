import Sieve.Text.Basic
import Sieve.Text.Lowercase

/-!
The legal name that may have been meant by an unknown one: the nearest in lower case, the first of
several, if it is at most three edits away.
-/

namespace Sieve

/-- The most edits between a name and what is suggested for it. -/
def suggestionReach : Nat := 3

/-- The edit distance of two names in lower case. -/
def nameDistance (name other : String) : Nat :=
  Text.editDistance (Text.lower name.toList) (Text.lower other.toList)

/-- The nearest of some names, the first of several, and its distance. -/
def nearestName? (name : String) : List String → Option (String × Nat)
  | [] => none
  | candidate :: rest =>
    let distance := nameDistance name candidate
    match nearestName? name rest with
    | some (other, less) =>
      if less < distance then some (other, less) else some (candidate, distance)
    | none => some (candidate, distance)

/-- The name to suggest for another. A name that is legal as it stands gets none. -/
def suggestion? (name : String) (legal : List String) : Option String :=
  match nearestName? name legal with
  | some (nearest, distance) =>
    if nearest ≠ name ∧ distance ≤ suggestionReach then some nearest else none
  | none => none

end Sieve
