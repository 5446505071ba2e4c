import Sieve.Text.Basic

/-!
Scanning of the parts of a date-time text. A scan takes a part off the front of a text and gives the
rest, or fails.
-/

namespace Sieve

abbrev Scan (α : Type) : Type := List Char → Option (α × List Char)

namespace Scan

/-- Exactly this character. -/
def char (c : Char) : Scan Unit
  | d :: cs => if d = c then some ((), cs) else none
  | [] => none

def blanks (cs : List Char) : List Char := Text.trimStart cs

/-- At least one blank. -/
def someBlanks : Scan Unit
  | c :: cs => if Text.isBlank c then some ((), blanks cs) else none
  | [] => none

/-- A number of at least so many digits, all that stand there. -/
def digits (least : Nat) : Scan Nat := fun cs =>
  let ds := cs.takeWhile Char.isDigit
  if ds.length < least then none else some (Nat.ofDigitChars 10 ds 0, cs.drop ds.length)

/-- A number of `least` to `most` digits; digits after them are left. -/
def number (least most : Nat) : Scan Nat := fun cs =>
  let ds := (cs.take most).takeWhile Char.isDigit
  if ds.length < least then none else some (Nat.ofDigitChars 10 ds 0, cs.drop ds.length)

/-- A number of exactly so many digits. -/
def fixed (width : Nat) : Scan Nat := number width width

/-- A number of one or two digits, after any blanks. -/
def short : Scan Nat := fun cs => number 1 2 (blanks cs)

/-- A point and a fraction of a second, in nanoseconds; nothing is zero. Digits past the ninth are
passed over. -/
def fraction : Scan Nat
  | '.' :: cs =>
    let ds := cs.takeWhile Char.isDigit
    let kept := ds.take 9
    if ds.isEmpty then none
    else some (Nat.ofDigitChars 10 kept 0 * Nat.pow 10 (9 - kept.length), cs.drop ds.length)
  | cs => some (0, cs)

/-- How an offset may be written. -/
structure OffsetForm where
  /-- The letter Z alone stands for no offset. -/
  letter : Bool
  /-- The minus sign of the typesetter serves as well as the hyphen. -/
  typeset : Bool
  /-- What stands between the hours and the minutes. -/
  between : List Char → Option (List Char)
  /-- The minutes may be missing at the end of the text. -/
  hoursAlone : Bool

/-- A sign; `true` is minus. -/
def sign (typeset : Bool) : Scan Bool
  | '+' :: cs => some (false, cs)
  | '-' :: cs => some (true, cs)
  | '−' :: cs => if typeset then some (true, cs) else none
  | _ => none

/-- Minutes of an offset, two digits below sixty. -/
def offsetMinutes (hoursAlone : Bool) : Scan Nat
  | [] => if hoursAlone then some (0, []) else none
  | cs => do
    let (minutes, rest) ← fixed 2 cs
    if minutes < 60 then some (minutes, rest) else none

/-- A signed offset, in seconds. -/
def signedOffset (form : OffsetForm) : Scan Int := fun cs => do
  let (minus, cs) ← sign form.typeset cs
  let (hours, cs) ← fixed 2 cs
  let cs ← form.between cs
  let (minutes, cs) ← offsetMinutes form.hoursAlone cs
  let seconds : Int := 3600 * hours + 60 * minutes
  some (if minus then -seconds else seconds, cs)

/-- An offset, in seconds. -/
def offset (form : OffsetForm) : Scan Int := fun cs =>
  match form.letter, cs with
  | true, 'Z' :: rest => some (0, rest)
  | true, 'z' :: rest => some (0, rest)
  | _, cs => signedOffset form cs

/-- One of some words, in any case, and its value. -/
def wordOf {α : Type} (words : List (String × α)) : Scan α := fun cs => do
  let head := (cs.take 3).map Char.toLower
  let value ← words.lookup (String.ofList head)
  some (value, cs.drop 3)

end Scan

end Sieve
