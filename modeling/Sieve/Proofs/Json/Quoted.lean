import Mathlib.Data.List.Forall2
import Sieve.Json.Quoted
import Sieve.Json.Write

/-!
Strings through JSON text. A character may be spelled in several ways, and each of them reads back
as the character, so a string reads back from any of its texts, whatever stands after its closing
quote. What a string is written as is one of them.
-/

namespace Sieve.Json

/-- A hexadecimal digit in either case. -/
def SpellsHex (d : Nat) (c : Char) : Prop :=
  d < 16 ∧ (c = hexDigit d ∨ c = (hexDigit d).toUpper)

/-- The four hexadecimal digits of a code. -/
def SpellsCode (code : Nat) (text : List Char) : Prop :=
  List.Forall₂ SpellsHex [code / 0x1000, code / 0x100 % 0x10, code / 0x10 % 0x10, code % 0x10] text

/-- The letters after a backslash, and the characters that they stand for. -/
def letterEscapes : List (Char × Char) :=
  [('"', '"'), ('\\', '\\'), ('/', '/'), ('b', '\x08'), ('f', '\x0c'), ('n', '\n'), ('r', '\r'),
    ('t', '\t')]

/-- The ways to spell a character inside quotes. A character past the first plane is spelled by two
codes, and no character is spelled by one of these alone. -/
inductive SpellsChar : Char → List Char → Prop
  | itself {c : Char} (printable : 0x20 ≤ c.toNat) (notQuote : c ≠ '"') (notBackslash : c ≠ '\\') :
      SpellsChar c [c]
  | letter {letter c : Char} (stands : (letter, c) ∈ letterEscapes) : SpellsChar c ['\\', letter]
  | code {c : Char} {text : List Char} (code : SpellsCode c.toNat text) :
      SpellsChar c ('\\' :: 'u' :: text)
  | pair {c : Char} {high low : List Char} (past : 0x10000 ≤ c.toNat)
      (first : SpellsCode (0xD800 + (c.toNat - 0x10000) / 0x400) high)
      (second : SpellsCode (0xDC00 + (c.toNat - 0x10000) % 0x400) low) :
      SpellsChar c ('\\' :: 'u' :: (high ++ '\\' :: 'u' :: low))

inductive SpellsChars : List Char → List Char → Prop
  | nil : SpellsChars [] []
  | cons {c : Char} {cs text more : List Char} (first : SpellsChar c text)
      (later : SpellsChars cs more) : SpellsChars (c :: cs) (text ++ more)

theorem SpellsChar.length_pos {c : Char} {text : List Char} (h : SpellsChar c text) :
    0 < text.length := by
  cases h with
  | itself => exact Nat.succ_pos _
  | letter => exact Nat.succ_pos _
  | code => exact Nat.succ_pos _
  | pair => exact Nat.succ_pos _

theorem SpellsChars.length_le {s text : List Char} (h : SpellsChars s text) :
    s.length ≤ text.length := by
  induction h with
  | nil => exact Nat.le_refl _
  | cons first later ih =>
    have some_text := first.length_pos
    rw [List.length_append, List.length_cons]
    omega

/-- A string in quotes. -/
def SpellsString (s : String) (text : List Char) : Prop :=
  ∃ inner, SpellsChars s.toList inner ∧ text = '"' :: (inner ++ ['"'])

namespace Reader

theorem hexValue?_spelled {d : Nat} {c : Char} (h : SpellsHex d c) : hexValue? c = some d := by
  have either : ∀ d < 16, hexValue? (hexDigit d) = some d ∧
      hexValue? (hexDigit d).toUpper = some d := by decide
  obtain ⟨small, rfl | rfl⟩ := h
  · exact (either d small).1
  · exact (either d small).2

theorem hexCode_spelled {code : Nat} {text : List Char} (h : SpellsCode code text)
    (rest : List Char) : hexCode (text ++ rest) = .ok (code, rest) := by
  simp only [SpellsCode, List.forall₂_cons_left_iff, List.forall₂_nil_left_iff] at h
  obtain ⟨a, _, ha, ⟨b, _, hb, ⟨c, _, hc, ⟨d, _, hd, rfl, rfl⟩, rfl⟩, rfl⟩, rfl⟩ := h
  have value : ((code / 0x1000 * 16 + code / 0x100 % 0x10) * 16 + code / 0x10 % 0x10) * 16 +
      code % 0x10 = code := by omega
  simp [hexCode, hexValue?_spelled ha, hexValue?_spelled hb, hexValue?_spelled hc,
    hexValue?_spelled hd, value]

/-- Half of a pair is no character. -/
theorem not_surrogate (c : Char) :
    isLowSurrogate c.toNat = false ∧ isHighSurrogate c.toNat = false := by
  have valid : c.toNat < 0xD800 ∨ 0xDFFF < c.toNat ∧ c.toNat < 0x110000 := c.valid
  simp only [isLowSurrogate, isHighSurrogate, Bool.and_eq_false_iff, decide_eq_false_iff_not]
  omega

theorem escapedCode_code {c : Char} {text : List Char} (h : SpellsCode c.toNat text)
    (rest : List Char) : escapedCode (text ++ rest) = .ok (c, rest) := by
  obtain ⟨not_low, not_high⟩ := not_surrogate c
  rw [escapedCode, hexCode_spelled h]
  simp [bind, Except.bind, not_low, not_high, pure, Except.pure]

/-- The halves of a pair are told from other codes, and give the character back. -/
theorem surrogates {c : Char} {high low : Nat} (past : 0x10000 ≤ c.toNat)
    (upper : high = 0xD800 + (c.toNat - 0x10000) / 0x400)
    (lower : low = 0xDC00 + (c.toNat - 0x10000) % 0x400) :
    isLowSurrogate high = false ∧ isHighSurrogate high = true ∧ isLowSurrogate low = true ∧
      pairedChar high low = c := by
  have valid : c.toNat < 0xD800 ∨ 0xDFFF < c.toNat ∧ c.toNat < 0x110000 := c.valid
  have whole : 0x10000 + (high - 0xD800) * 0x400 + (low - 0xDC00) = c.toNat := by omega
  simp only [isLowSurrogate, isHighSurrogate, Bool.and_eq_false_iff, Bool.and_eq_true,
    decide_eq_false_iff_not, decide_eq_true_eq]
  refine ⟨by omega, by omega, by omega, ?_⟩
  rw [pairedChar, whole, Char.ofNat_toNat]

theorem escapedCode_pair {upper lower : Nat} {high low : List Char}
    (first : SpellsCode upper high) (second : SpellsCode lower low)
    (not_low : isLowSurrogate upper = false) (is_high : isHighSurrogate upper = true)
    (is_low : isLowSurrogate lower = true) (rest : List Char) :
    escapedCode (high ++ '\\' :: 'u' :: (low ++ rest)) = .ok (pairedChar upper lower, rest) := by
  rw [escapedCode, hexCode_spelled first]
  simp [bind, Except.bind, not_low, is_high, lowSurrogate, hexCode_spelled second, is_low, pure,
    Except.pure]

/-- The cases are the ways to spell a character. -/
theorem quotedChar_spelled {c : Char} {text : List Char} (h : SpellsChar c text)
    (rest : List Char) : quotedChar (text ++ rest) = .ok (some c, rest) := by
  cases h with
  | itself printable notQuote notBackslash =>
    rw [List.cons_append, List.nil_append, quotedChar.eq_def]
    split
    · rename_i nothing
      cases nothing
    · rename_i here
      cases here
      exact absurd rfl notQuote
    · rename_i here
      cases here
      exact absurd rfl notBackslash
    · rename_i here
      cases here
      exact if_neg (by omega)
  | letter stands =>
    simp only [letterEscapes, List.mem_cons, Prod.mk.injEq, List.not_mem_nil, or_false] at stands
    rcases stands with ⟨rfl, rfl⟩ | ⟨rfl, rfl⟩ | ⟨rfl, rfl⟩ | ⟨rfl, rfl⟩ | ⟨rfl, rfl⟩ | ⟨rfl, rfl⟩ |
      ⟨rfl, rfl⟩ | ⟨rfl, rfl⟩ <;> rfl
  | @code _ text code =>
    change (escapedCode (text ++ rest)).bind _ = _
    rw [escapedCode_code code]
    rfl
  | @pair _ high low past first second =>
    rw [List.cons_append, List.cons_append, List.append_assoc, List.cons_append, List.cons_append]
    change (escapedCode (high ++ '\\' :: 'u' :: (low ++ rest))).bind _ = _
    obtain ⟨not_low, is_high, is_low, paired⟩ := surrogates past rfl rfl
    rw [escapedCode_pair first second not_low is_high is_low, paired]
    rfl

/-- As many rounds as there are characters and one for the closing quote. -/
theorem collect_go_spelled {s text : List Char} (h : SpellsChars s text) (rounds : Nat)
    (held rest : List Char) (enough : s.length < rounds) :
    collect.go quotedChar rounds held (text ++ '"' :: rest) = .ok (held.reverse ++ s, rest) := by
  induction h generalizing rounds held with
  | nil =>
    obtain ⟨rounds, rfl⟩ := Nat.exists_eq_succ_of_ne_zero (by omega : rounds ≠ 0)
    simp [collect.go, quotedChar]
  | @cons c cs text more first later ih =>
    obtain ⟨rounds, rfl⟩ := Nat.exists_eq_succ_of_ne_zero (by omega : rounds ≠ 0)
    rw [List.length_cons] at enough
    rw [List.append_assoc, collect.go, quotedChar_spelled first]
    simp only []
    rw [ih rounds (c :: held) (by omega), List.reverse_cons, List.append_assoc,
      List.singleton_append]

theorem quoted_spelled {s : String} {text : List Char} (h : SpellsChars s.toList text)
    (rest : List Char) : quoted (text ++ '"' :: rest) = .ok (s, rest) := by
  have enough := h.length_le
  rw [quoted, collect, collect_go_spelled h]
  · simp [bind, Except.bind, pure, Except.pure]
  · rw [List.length_append]
    omega

end Reader

/-- The cases are those of `escape`: letters, codes, and characters that stand for themselves. -/
theorem spellsChar_escape (c : Char) : SpellsChar c (escape c) := by
  unfold escape
  split
  iterate 7 exact .letter (by decide)
  rename_i notQuote notBackslash _ _ _ _ _
  split
  · rename_i control
    refine .code (.cons ⟨by omega, Or.inl ?_⟩ (.cons ⟨by omega, Or.inl ?_⟩
      (.cons ⟨by omega, Or.inl ?_⟩ (.cons ⟨by omega, Or.inl rfl⟩ .nil))))
    · rw [show c.toNat / 0x1000 = 0 by omega]
      rfl
    · rw [show c.toNat / 0x100 % 0x10 = 0 by omega]
      rfl
    · rw [show c.toNat / 0x10 % 0x10 = c.toNat / 16 by omega]
  · rename_i printable
    exact .itself (by omega) notQuote notBackslash

theorem spellsChars_escape (s : List Char) : SpellsChars s (s.flatMap escape) := by
  induction s with
  | nil => exact .nil
  | cons c s ih =>
    rw [List.flatMap_cons]
    exact .cons (spellsChar_escape c) ih

/-- What a string is written as is one way to spell it. -/
theorem spellsString_quote (s : String) : SpellsString s (quote s.toList) :=
  ⟨_, spellsChars_escape s.toList, rfl⟩

theorem Reader.quoted_escape (s : String) (rest : List Char) :
    quoted (s.toList.flatMap escape ++ '"' :: rest) = .ok (s, rest) :=
  quoted_spelled (spellsChars_escape s.toList) rest

end Sieve.Json
