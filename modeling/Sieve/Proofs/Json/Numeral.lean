import Mathlib.Data.List.Basic
import Sieve.Json.Numeral
import Sieve.Json.Write

/-!
Numerals through JSON text. A numeral in the form that the number grammar asks for reads back part
by part up to the first character that cannot go on with it, however its exponent is spelled. Every
number is written in that form, so what a written number reads back as does not depend on what
follows it.
-/

namespace Sieve.Json

namespace Numeral

def signText (negative : Bool) : List Char := if negative then ['-'] else []

def fractionText : Option (List Char) → List Char
  | none => []
  | some digits => '.' :: digits

def exponentText : Option (Bool × List Char) → List Char
  | none => []
  | some (down, digits) => 'e' :: (if down then '-' else '+') :: digits

/-- The numeral as text, its exponent always with a sign. -/
def text (numeral : Numeral) : List Char :=
  signText numeral.negative ++ (numeral.whole ++
    (fractionText numeral.fraction ++ exponentText numeral.exponent))

/-- The marks before the digits of an exponent, and whether they are a minus. -/
def exponentMarks : List (List Char × Bool) := [([], false), (['+'], false), (['-'], true)]

/-- The ways to spell an exponent: its letter in either case, a plus sign or none. -/
inductive SpellsExponent : Option (Bool × List Char) → List Char → Prop
  | absent : SpellsExponent none []
  | present {letter : Char} {mark : List Char} {down : Bool} (digits : List Char)
      (either : letter = 'e' ∨ letter = 'E') (marked : (mark, down) ∈ exponentMarks) :
      SpellsExponent (some (down, digits)) (letter :: (mark ++ digits))

/-- The text is one of the numeral, which leaves a choice for its exponent only. -/
def Spells (numeral : Numeral) (text : List Char) : Prop :=
  ∃ exponent, SpellsExponent numeral.exponent exponent ∧
    text = signText numeral.negative ++ (numeral.whole ++
      (fractionText numeral.fraction ++ exponent))

theorem spells_text (numeral : Numeral) : numeral.Spells numeral.text := by
  refine ⟨exponentText numeral.exponent, ?_, rfl⟩
  cases numeral.exponent with
  | none => exact .absent
  | some exponent =>
    obtain ⟨down, digits⟩ := exponent
    have marked : ([if down then '-' else '+'], down) ∈ exponentMarks := by
      cases down <;> decide
    exact .present digits (Or.inl rfl) marked

/-- At least one character, all of them digits. -/
def Digits (cs : List Char) : Prop := cs ≠ [] ∧ ∀ c ∈ cs, c.isDigit = true

/-- Digits where digits must stand, and no needless zero in front. -/
structure Proper (numeral : Numeral) : Prop where
  whole : Digits numeral.whole
  no_needless_zero : ∀ c cs, numeral.whole ≠ '0' :: c :: cs
  fraction : ∀ digits ∈ numeral.fraction, Digits digits
  exponent : ∀ exponent ∈ numeral.exponent, Digits exponent.2

/-- A numeral starts with its sign or a digit. -/
theorem Spells.head {numeral : Numeral} {text : List Char} (spelled : numeral.Spells text)
    (proper : numeral.Proper) : ∃ c cs, text = c :: cs ∧ (c == '-' || c.isDigit) = true := by
  obtain ⟨exponent, _, rfl⟩ := spelled
  obtain ⟨d, ds, whole⟩ := List.exists_cons_of_ne_nil proper.whole.1
  have digit : d.isDigit = true := proper.whole.2 d (by simp [whole])
  rw [whole]
  cases numeral.negative with
  | true => exact ⟨'-', _, rfl, rfl⟩
  | false => exact ⟨d, _, rfl, by simp [digit]⟩

end Numeral

open Numeral

/-- The text does not start with a digit. -/
def EndsDigits (rest : List Char) : Prop := ∀ c ∈ rest.head?, c.isDigit = false

/-- The text starts with nothing that a numeral could go on with. -/
def EndsNumeral (rest : List Char) : Prop :=
  ∀ c ∈ rest.head?, c.isDigit = false ∧ c ≠ '.' ∧ c ≠ 'e' ∧ c ≠ 'E'

theorem EndsNumeral.endsDigits {rest : List Char} (h : EndsNumeral rest) : EndsDigits rest :=
  fun c hc => (h c hc).1

theorem endsNumeral_nil : EndsNumeral [] := by
  intro c hc
  cases hc

namespace Reader

theorem leadingDigits_append {ds rest : List Char} (digits : ∀ c ∈ ds, c.isDigit = true)
    (ends : EndsDigits rest) : leadingDigits (ds ++ rest) = (ds, rest) := by
  rw [leadingDigits, List.takeWhile_append_of_pos digits, List.dropWhile_append_of_pos digits]
  cases rest with
  | nil => simp
  | cons c cs =>
    have stop := ends c rfl
    simp [stop]

theorem wholePart_append (atEnd : Cause) {ds rest : List Char} (digits : Digits ds)
    (no_needless_zero : ∀ c cs, ds ≠ '0' :: c :: cs) (ends : EndsDigits rest) :
    wholePart atEnd (ds ++ rest) = .ok (ds, rest) := by
  have some_digit := digits.1
  unfold wholePart
  rw [leadingDigits_append digits.2 ends]
  split <;> simp_all

/-- What follows the whole digits or those of the fraction: an exponent or the end. -/
theorem ends_exponent {exponent : Option (Bool × List Char)} {text rest : List Char}
    (spelled : SpellsExponent exponent text) (ends : EndsNumeral rest) :
    EndsDigits (text ++ rest) ∧ '.' ∉ (text ++ rest).head? := by
  cases spelled with
  | absent => exact ⟨ends.endsDigits, fun point => (ends _ point).2.1 rfl⟩
  | present digits either marked =>
    constructor
    · intro c here
      cases here
      rcases either with rfl | rfl <;> rfl
    · intro point
      cases point
      rcases either with h | h <;> cases h

theorem endsDigits_fractionText {fraction : Option (List Char)} {rest : List Char}
    (ends : EndsDigits rest) : EndsDigits (fractionText fraction ++ rest) := by
  cases fraction with
  | none => exact ends
  | some digits =>
    intro c hc
    cases hc
    rfl

theorem fractionPart_text (atEnd : Cause) {fraction : Option (List Char)} {rest : List Char}
    (proper : ∀ digits ∈ fraction, Digits digits) (ends : EndsDigits rest)
    (no_point : '.' ∉ rest.head?) :
    fractionPart atEnd (fractionText fraction ++ rest) = .ok (fraction, rest) := by
  cases fraction with
  | none =>
    rw [fractionText, List.nil_append, fractionPart.eq_def]
    split
    · exact absurd rfl no_point
    · rfl
  | some digits =>
    have some_digit := (proper digits rfl).1
    rw [fractionText, List.cons_append, fractionPart.eq_def]
    simp only [leadingDigits_append (proper digits rfl).2 ends]
    cases digits with
    | nil => exact absurd rfl some_digit
    | cons d ds => rfl

/-- A mark is told from the digits after it. -/
theorem sign_mark {mark digits : List Char} {down : Bool} (marked : (mark, down) ∈ exponentMarks)
    (proper : Digits digits) (rest : List Char) :
    sign (mark ++ (digits ++ rest)) = (down, digits ++ rest) := by
  obtain ⟨d, ds, rfl⟩ := List.exists_cons_of_ne_nil proper.1
  have digit : d.isDigit = true := proper.2 d List.mem_cons_self
  simp only [exponentMarks, List.mem_cons, Prod.mk.injEq, List.not_mem_nil, or_false] at marked
  rcases marked with ⟨rfl, rfl⟩ | ⟨rfl, rfl⟩ | ⟨rfl, rfl⟩
  · rw [List.nil_append, List.cons_append, sign.eq_def]
    split
    · rename_i minus
      cases minus
      cases digit
    · rename_i plus
      cases plus
      cases digit
    · rfl
  · rfl
  · rfl

theorem signedDigits_mark (atEnd : Cause) {mark digits rest : List Char} {down : Bool}
    (marked : (mark, down) ∈ exponentMarks) (proper : Digits digits) (ends : EndsDigits rest) :
    signedDigits atEnd (mark ++ (digits ++ rest)) = .ok (some (down, digits), rest) := by
  have some_digit := proper.1
  rw [signedDigits, sign_mark marked proper]
  simp only [leadingDigits_append proper.2 ends]
  cases digits with
  | nil => exact absurd rfl some_digit
  | cons d ds => rfl

theorem exponentPart_spelled (atEnd : Cause) {exponent : Option (Bool × List Char)}
    {text rest : List Char} (spelled : SpellsExponent exponent text)
    (proper : ∀ e ∈ exponent, Digits e.2) (ends : EndsNumeral rest) :
    exponentPart atEnd (text ++ rest) = .ok (exponent, rest) := by
  cases spelled with
  | absent =>
    rw [List.nil_append, exponentPart.eq_def]
    split
    · exact absurd rfl (ends _ rfl).2.2.1
    · exact absurd rfl (ends _ rfl).2.2.2
    · rfl
  | @present letter mark down digits either marked =>
    have read := signedDigits_mark atEnd marked (proper _ rfl) ends.endsDigits
    rw [List.cons_append, List.append_assoc]
    rcases either with rfl | rfl <;> exact read

/-- The sign comes off first, and the parts follow. -/
theorem numeral_signText (atEnd : Cause) (negative : Bool) {body : List Char}
    (unsigned : '-' ∉ body.head?) :
    numeral atEnd (signText negative ++ body) = (do
      let (whole, cs) ← wholePart atEnd body
      let (fraction, cs) ← fractionPart atEnd cs
      let (exponent, cs) ← exponentPart atEnd cs
      pure (⟨negative, whole, fraction, exponent⟩, cs)) := by
  cases negative with
  | true => rfl
  | false =>
    unfold numeral
    simp only [signText, Bool.false_eq_true, ↓reduceIte, List.nil_append]
    split
    · exact absurd rfl unsigned
    · rfl

/-- A numeral in proper form is read off each of its texts. -/
theorem numeral_spelled (atEnd : Cause) {n : Numeral} {text rest : List Char} (proper : n.Proper)
    (spelled : n.Spells text) (ends : EndsNumeral rest) :
    numeral atEnd (text ++ rest) = .ok (n, rest) := by
  obtain ⟨negative, whole, fraction, exponent⟩ := n
  obtain ⟨exponentText, spelled, rfl⟩ := spelled
  obtain ⟨after_fraction, no_point⟩ := ends_exponent spelled ends
  have after_whole : EndsDigits (fractionText fraction ++ (exponentText ++ rest)) :=
    endsDigits_fractionText after_fraction
  have whole_read := wholePart_append atEnd proper.whole proper.no_needless_zero after_whole
  have fraction_read := fractionPart_text atEnd proper.fraction after_fraction no_point
  have exponent_read := exponentPart_spelled atEnd spelled proper.exponent ends
  have unsigned :
      '-' ∉ (whole ++ (fractionText fraction ++ (exponentText ++ rest))).head? := by
    obtain ⟨d, ds, rfl⟩ := List.exists_cons_of_ne_nil proper.whole.1
    intro minus
    cases minus
    exact absurd (proper.whole.2 '-' List.mem_cons_self) (by decide)
  rw [List.append_assoc, List.append_assoc, List.append_assoc,
    numeral_signText atEnd negative unsigned]
  simp only at whole_read fraction_read exponent_read
  rw [whole_read]
  simp only [bind, Except.bind]
  rw [fraction_read]
  simp only [exponent_read]
  rfl

theorem numeral_text (atEnd : Cause) {n : Numeral} {rest : List Char} (proper : n.Proper)
    (ends : EndsNumeral rest) : numeral atEnd (n.text ++ rest) = .ok (n, rest) :=
  numeral_spelled atEnd proper (spells_text n) ends

end Reader

end Sieve.Json
