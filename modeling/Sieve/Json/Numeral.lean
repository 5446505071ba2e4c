import Sieve.Json.Reader

/-!
Numbers in JSON text. A numeral is taken apart into its digits, which then give the number. Digits
are gathered into sixty-four bits; whole digits past them only count as powers of ten, and digits of
the fraction past them are dropped. The binary64 number is the gathered one times a power of ten,
rounded after each operation, so the last bit may differ from that of the nearest number.
-/

namespace Sieve.Json

/-- The digits of a numeral. -/
structure Numeral where
  negative : Bool
  whole : List Char
  fraction : Option (List Char)
  /-- The sign and the digits after the letter. -/
  exponent : Option (Bool × List Char)

/-- Digits are gathered below this. -/
def significandLimit : Nat := 0x10000000000000000

/-- Exponents are read below this. -/
def exponentLimit : Nat := 0x80000000

/-- Appends digits to a number as long as it stays below a limit, and gives the digits left. -/
def gather (limit : Nat) (n : Nat) : List Char → Nat × List Char
  | [] => (n, [])
  | c :: cs =>
    let next := n * 10 + (c.toNat - 48)
    if next < limit then gather limit next cs else (n, c :: cs)

/-- What a numeral comes to. -/
inductive Numeral.Outcome where
  | number (n : Number)
  /-- Too large, seen when so many of its digits were not read yet. -/
  | tooLarge (unread : Nat)

namespace Numeral

def signed (negative : Bool) (x : Binary64) : Binary64 := if negative then x.neg else x

/-- A binary64 number under a sign, if it is finite. -/
def ofBinary64 (negative : Bool) (x : Binary64) : Outcome :=
  if finite : (signed negative x).isFinite = true then
    .number (.binary (signed negative x) finite)
  else .tooLarge 0

/-- A whole number, as binary64 where sixty-four bits do not hold it. There is no negative zero
among the whole numbers. -/
def ofWhole (negative : Bool) (n : Nat) : Outcome :=
  if negative then
    if fits : 0 < n ∧ n ≤ 9223372036854775808 then .number (.whole (-n) (by omega) (by omega))
    else ofBinary64 true (.ofNat n)
  else
    if fits : n < 18446744073709551616 then .number (.whole n (by omega) (by omega))
    else ofBinary64 false (.ofNat n)

/-- The number that a numeral stands for. An exponent past thirty-two bits makes zero of a zero and
of whatever it divides, and is too large otherwise. -/
def outcome (numeral : Numeral) : Outcome :=
  let (front, counted) := gather significandLimit 0 numeral.whole
  let digits := numeral.fraction.getD []
  let (significand, dropped) := gather significandLimit front digits
  let point : Int := (counted.length : Int) - ((digits.length : Int) - dropped.length)
  match numeral.exponent with
  | none =>
    if numeral.fraction.isNone && counted.isEmpty then ofWhole numeral.negative significand
    else ofBinary64 numeral.negative ((Binary64.ofNat significand).scale point)
  | some (down, digits) =>
    match gather exponentLimit 0 digits with
    | (exponent, []) =>
      let shift := if down then point - exponent else point + exponent
      ofBinary64 numeral.negative ((Binary64.ofNat significand).scale shift)
    | (_, _ :: unread) =>
      if significand = 0 ∨ down then ofBinary64 numeral.negative .zero
      else .tooLarge unread.length

end Numeral

namespace Reader

def leadingDigits (cs : List Char) : List Char × List Char :=
  (cs.takeWhile Char.isDigit, cs.dropWhile Char.isDigit)

/-- Whole digits, without a needless zero in front. `atEnd` is the failure of a text that ends where
a digit should stand. -/
def wholePart (atEnd : Cause) : Reader (List Char) := fun cs =>
  match leadingDigits cs, cs with
  | ([], _), [] => .error (.here atEnd [])
  | ([], _), cs => .error (.peek .invalidNumber cs)
  | ('0' :: _ :: _, _), cs => .error (.peek .invalidNumber cs.tail)
  | (digits, rest), _ => .ok (digits, rest)

/-- The digits after a point, if there is one. -/
def fractionPart (atEnd : Cause) : Reader (Option (List Char))
  | '.' :: cs =>
    match leadingDigits cs, cs with
    | ([], _), [] => .error (.here atEnd [])
    | ([], _), cs => .error (.peek .invalidNumber cs)
    | (digits, rest), _ => .ok (some digits, rest)
  | cs => .ok (none, cs)

/-- A sign that may be left out; `true` is minus. -/
def sign : List Char → Bool × List Char
  | '-' :: cs => (true, cs)
  | '+' :: cs => (false, cs)
  | cs => (false, cs)

def signedDigits (atEnd : Cause) (cs : List Char) :
    Except Stop (Option (Bool × List Char) × List Char) :=
  match leadingDigits (sign cs).2, (sign cs).2 with
  | ([], _), [] => .error (.here atEnd [])
  | ([], _), cs => .error (.peek .invalidNumber cs)
  | (digits, rest), _ => .ok (some ((sign cs).1, digits), rest)

/-- The exponent, if there is one. -/
def exponentPart (atEnd : Cause) : Reader (Option (Bool × List Char))
  | 'e' :: cs => signedDigits atEnd cs
  | 'E' :: cs => signedDigits atEnd cs
  | cs => .ok (none, cs)

/-- The digits of a numeral. -/
def numeral (atEnd : Cause) : Reader Numeral := fun cs => do
  let (negative, cs) := match cs with
    | '-' :: rest => (true, rest)
    | cs => (false, cs)
  let (whole, cs) ← wholePart atEnd cs
  let (fraction, cs) ← fractionPart atEnd cs
  let (exponent, cs) ← exponentPart atEnd cs
  pure (⟨negative, whole, fraction, exponent⟩, cs)

/-- A number. -/
def number : Reader Number := fun cs => do
  let (numeral, rest) ← numeral .endOfValue cs
  match numeral.outcome with
  | .number n => pure (n, rest)
  | .tooLarge unread => .error ⟨.outOfRange, unread + byteLength rest⟩

end Reader

end Sieve.Json
