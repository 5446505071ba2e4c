import Sieve.Filter.Basic
import Sieve.Filter.Suggestion

/-!
Why a node cannot be decoded, and the words for it. An unknown name that is nearly a legal one is
answered with that one.
-/

namespace Sieve

/-- What the type of a node may be. -/
inductive NodeKind where
  | leaf (k : LeafKind)
  | combinator (c : Combinator)
deriving DecidableEq

namespace NodeKind

def name : NodeKind → String
  | .leaf k => k.name
  | .combinator c => c.name

/-- Every type, in the order in which they are offered. -/
def all : List NodeKind :=
  [.leaf .string, .leaf .number, .leaf .boolean, .leaf .date, .combinator .or, .combinator .and]

def ofName? (name : String) : Option NodeKind := all.find? fun kind => kind.name == name

end NodeKind

inductive Rejection where
  | notObject (found : Json.Kind)
  | missing (key : String)
  | wrongKind (key wanted : String) (found : Json.Kind)
  | unknownType (name : String)
  | unknownOperation (name : String) (kind : LeafKind) (legal : List String)
deriving DecidableEq

namespace Rejection

def inQuotes (s : String) : String := "\"" ++ s ++ "\""

/-- The question after an unknown name, if there is a name to suggest. -/
def question (name : String) (legal : List String) : String :=
  match suggestion? name legal with
  | some nearest => " (did you mean " ++ inQuotes nearest ++ "?)"
  | none => ""

def reason : Rejection → String
  | .notObject found => "expected an object, found " ++ found.phrase
  | .missing key => "missing " ++ inQuotes key
  | .wrongKind key wanted found =>
    inQuotes key ++ " must be " ++ wanted ++ ", found " ++ found.phrase
  | .unknownType name =>
    "unknown filter type " ++ inQuotes name ++ question name (NodeKind.all.map NodeKind.name)
  | .unknownOperation name kind legal =>
    "unknown operation " ++ inQuotes name ++ " for " ++ kind.name ++ " filter" ++
      question name legal

end Rejection

end Sieve
