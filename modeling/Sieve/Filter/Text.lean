import Sieve.Report
import Sieve.Filter.Decode
import Sieve.Filter.Path
import Sieve.Json.Read

/-!
Filters from text. Lenient parsing keeps what it cannot decode; strict parsing reports the first
such node. A filter inside other data is read strictly too, but there the filter itself is checked
before what follows it.
-/

namespace Sieve

namespace Filter

/-- No node is unsupported, or the first that is. -/
def validate (f : Filter) : Except FilterError Unit :=
  match f.firstUnsupported? with
  | none => .ok ()
  | some (path, reason) => .error (.unsupportedNode path.render reason)

/-- The filter, if no node of it is unsupported. -/
def validated (f : Filter) : Except FilterError Filter := f.validate.map fun () => f

/-- Parses a filter, keeping what cannot be decoded, and logs what it keeps. -/
def parseLenientLogged (text : String) : Logged (Except FilterError Filter) :=
  match Json.ofText text with
  | .error fault => pure (.error (.invalidJson fault.message))
  | .ok v => do
    let f ← decode v
    pure (.ok f)

/-- Parses a filter, refusing what cannot be decoded, and logs what was refused. -/
def parseLogged (text : String) : Logged (Except FilterError Filter) := do
  let parsed ← parseLenientLogged text
  pure (parsed.bind validated)

def parseLenient (text : String) : Except FilterError Filter := (parseLenientLogged text).value

def parse (text : String) : Except FilterError Filter := (parseLogged text).value

/-- Why a filter inside other data is refused. -/
inductive EmbeddedError where
  | malformed (fault : Json.Fault)
  | rejected (error : FilterError)

def EmbeddedError.message : EmbeddedError → String
  | .malformed fault => fault.message
  | .rejected error => error.message

/-- Takes a filter from a value. -/
def ofEmbeddedLogged (v : Json) : Logged (Except EmbeddedError Filter) := do
  let f ← decode v
  pure (f.validated.mapError .rejected)

/-- Reads a filter where a text begins, and looks at the rest of the text only once the filter is
found good. -/
def readLogged (text : String) : Logged (Except EmbeddedError Filter) :=
  let cs := text.toList
  match Json.Reader.value Json.bracketBudget cs with
  | .error stop => pure (.error (.malformed (stop.fault cs)))
  | .ok (v, rest) => do
    match ← ofEmbeddedLogged v with
    | .error error => pure (.error error)
    | .ok f =>
      match Json.endOfText rest with
      | .error stop => pure (.error (.malformed (stop.fault cs)))
      | .ok () => pure (.ok f)

def ofEmbedded (v : Json) : Except EmbeddedError Filter := (ofEmbeddedLogged v).value

def read (text : String) : Except EmbeddedError Filter := (readLogged text).value

end Filter

end Sieve
