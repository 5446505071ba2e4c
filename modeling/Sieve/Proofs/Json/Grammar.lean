import Sieve.Proofs.Json.Numeral
import Sieve.Proofs.Json.Quoted

/-!
The JSON grammar, apart from any reader: which texts spell a value. Blanks may stand around every
part, characters and numbers may be spelled in several ways, and a name may stand in an object more
than once, its last value being the one that counts.
-/

namespace Sieve.Json

/-- The blanks that may stand around any part of a text. -/
def Blanks (text : List Char) : Prop := ∀ c ∈ text, c ∈ [' ', '\n', '\t', '\r']

/-- A numeral in proper form that is not too large. -/
def SpellsNumber (n : Number) (text : List Char) : Prop :=
  ∃ numeral : Numeral, numeral.Proper ∧ numeral.Spells text ∧ numeral.outcome = .number n

/-- A value without brackets. -/
inductive SpellsScalar : Json → List Char → Prop
  | null : SpellsScalar .null "null".toList
  | true : SpellsScalar (.bool true) "true".toList
  | false : SpellsScalar (.bool false) "false".toList
  | number {n : Number} {text : List Char} (spelled : SpellsNumber n text) :
      SpellsScalar (.number n) text
  | string {s : String} {text : List Char} (spelled : SpellsString s text) :
      SpellsScalar (.string s) text

section Entries

variable {α : Type}

/-- What may follow an entry between brackets: the end, or a comma and more of them. -/
inductive SpellsMore (one : α → List Char → Prop) (close : Char) : List α → List Char → Prop
  | close {before : List Char} (blank : Blanks before) :
      SpellsMore one close [] (before ++ [close])
  | comma {a : α} {entries : List α} {before after text more : List Char} (blank : Blanks before)
      (blank' : Blanks after) (entry : one a text) (later : SpellsMore one close entries more) :
      SpellsMore one close (a :: entries) (before ++ ',' :: (after ++ (text ++ more)))

/-- Entries with commas between them, from the opening bracket to the closing one. -/
inductive SpellsEntries (one : α → List Char → Prop) (close : Char) : List α → List Char → Prop
  | empty {before : List Char} (blank : Blanks before) :
      SpellsEntries one close [] (before ++ [close])
  | first {a : α} {entries : List α} {before text more : List Char} (blank : Blanks before)
      (entry : one a text) (later : SpellsMore one close entries more) :
      SpellsEntries one close (a :: entries) (before ++ (text ++ more))

/-- A member of an object: its name in quotes, a colon and its value. -/
inductive SpellsMember (one : α → List Char → Prop) : String × α → List Char → Prop
  | mk {name : String} {a : α} {quoted before after text : List Char}
      (named : SpellsString name quoted) (blank : Blanks before) (blank' : Blanks after)
      (value : one a text) :
      SpellsMember one (name, a) (quoted ++ (before ++ ':' :: (after ++ text)))

/-- A member starts with the quote of its name. -/
theorem SpellsMember.head {one : α → List Char → Prop} {entry : String × α} {text : List Char}
    (h : SpellsMember one entry text) : ∃ inner, text = '"' :: inner := by
  cases h with
  | mk named blank blank' value =>
    obtain ⟨inner, _, rfl⟩ := named
    exact ⟨_, rfl⟩

end Entries

/-- A value whose items or members are spelled as `inner` says. -/
inductive SpellsOver (inner : Json → List Char → Prop) : Json → List Char → Prop
  | scalar {v : Json} {text : List Char} (spelled : SpellsScalar v text) : SpellsOver inner v text
  | array {items : List Json} {text : List Char} (spelled : SpellsEntries inner ']' items text) :
      SpellsOver inner (.array items) ('[' :: text)
  | object {entries : List (String × Json)} {text : List Char}
      (spelled : SpellsEntries (SpellsMember inner) '}' entries text) :
      SpellsOver inner (ofMembers entries) ('{' :: text)

/-- A value with brackets nested at most so deep. -/
def Spells : Nat → Json → List Char → Prop
  | 0 => SpellsScalar
  | depth + 1 => SpellsOver (Spells depth)

/-- A value without brackets, or one that starts with the bracket of its kind. -/
theorem spells_cases {depth : Nat} {v : Json} {text : List Char} (h : Spells depth v text) :
    SpellsScalar v text ∨ (∃ items inner, v = .array items ∧ text = '[' :: inner) ∨
      ∃ members inner, v = .object members ∧ text = '{' :: inner := by
  cases depth with
  | zero => exact Or.inl h
  | succ depth =>
    cases h with
    | scalar spelled => exact Or.inl spelled
    | array spelled => exact Or.inr (Or.inl ⟨_, _, rfl, rfl⟩)
    | object spelled => exact Or.inr (Or.inr ⟨_, _, rfl, rfl⟩)

/-- A whole text with blanks around what it spells. -/
def SpellsWhole {α : Type} (one : α → List Char → Prop) (a : α) (text : String) : Prop :=
  ∃ before inner after, Blanks before ∧ one a inner ∧ Blanks after ∧
    text.toList = before ++ (inner ++ after)

/-- An object whose members are these, as they stand there. -/
def SpellsObject (depth : Nat) (entries : List (String × Json)) (text : List Char) : Prop :=
  ∃ inner, SpellsEntries (SpellsMember (Spells depth)) '}' entries inner ∧ text = '{' :: inner

end Sieve.Json
