import Sieve.Json.Fault

/-!
Readers of JSON text. A reader takes what it reads off the front of a text and gives the rest. Where
it fails it says how many bytes were left, which fixes the place once the whole text is known. A
failure is placed either here, where the rest begins, or one byte into the rest.
-/

namespace Sieve.Json

/-- Why a reader stopped, and how many bytes it had not passed. -/
structure Stop where
  cause : Cause
  unread : Nat

abbrev Reader (α : Type) : Type := List Char → Except Stop (α × List Char)

/-- A failure where the rest begins. -/
def Stop.here (cause : Cause) (rest : List Char) : Stop := ⟨cause, byteLength rest⟩

/-- A failure at the first byte of the rest, counted as passed if there is one. -/
def Stop.peek (cause : Cause) (rest : List Char) : Stop := ⟨cause, byteLength rest - 1⟩

/-- The failure with its place in the whole text. -/
def Stop.fault (text : List Char) (stop : Stop) : Fault :=
  ⟨stop.cause, some (Place.after text (byteLength text - stop.unread))⟩

/-- Blanks between the parts of a text. -/
def isBlank (c : Char) : Bool := c == ' ' || c == '\n' || c == '\t' || c == '\r'

def skipBlanks (cs : List Char) : List Char := cs.dropWhile isBlank

/-- Repeats a step until it gives nothing, and lists what it gave after what was `held`. Every step
reads at least one character, so as many rounds as there are characters are enough. -/
def collect {α : Type} (step : Reader (Option α)) (held : List α) (cs : List Char) :
    Except Stop (List α × List Char) :=
  go (cs.length + 1) held.reverse cs
where
  go : Nat → List α → List Char → Except Stop (List α × List Char)
    | 0, _, cs => .error (.here .endOfValue cs)
    | rounds + 1, held, cs =>
      match step cs with
      | .error stop => .error stop
      | .ok (none, rest) => .ok (held.reverse, rest)
      | .ok (some a, rest) => go rounds (a :: held) rest

/-- The letters of a word. -/
def word : List Char → Reader Unit
  | [], cs => .ok ((), cs)
  | _ :: _, [] => .error (.here .endOfValue [])
  | w :: ws, c :: cs => if c = w then word ws cs else .error (.peek .expectedWord (c :: cs))

/-- Nothing but blanks may follow. -/
def endOfText (cs : List Char) : Except Stop Unit :=
  match skipBlanks cs with
  | [] => .ok ()
  | rest => .error (.peek .trailingText rest)

/-- Reads a whole text. -/
def Reader.run {α : Type} (reader : Reader α) (text : String) : Except Fault α :=
  let cs := text.toList
  match reader cs with
  | .error stop => .error (stop.fault cs)
  | .ok (a, rest) =>
    match endOfText rest with
    | .error stop => .error (stop.fault cs)
    | .ok () => .ok a

end Sieve.Json
