import Sieve.Proofs.Leaf
import Sieve.Proofs.Verdict

/-!
What string leaves make of two texts. A search through a text finds a part exactly if the text is
something, the part, and something more. It makes no difference whether characters are compared or
the bytes that encode them: no character starts in the middle of another.
-/

namespace Sieve

namespace Text

theorem occursIn_iff {part s : List Char} : occursIn part s = true ↔ part <:+: s := by
  induction s with
  | nil => simp [occursIn]
  | cons c cs ih => simp [occursIn, ih, List.infix_cons_iff]

theorem exists_eq_append_iff {part s : String} :
    (∃ after, s = part ++ after) ↔ part.toList <+: s.toList := by
  constructor
  · rintro ⟨after, rfl⟩
    rw [String.toList_append]
    exact List.prefix_append _ _
  · rintro ⟨after, split⟩
    refine ⟨String.ofList after, String.toList_inj.mp ?_⟩
    rw [String.toList_append, String.toList_ofList, split]

theorem exists_append_eq_iff {part s : String} :
    (∃ before, s = before ++ part) ↔ part.toList <:+ s.toList := by
  constructor
  · rintro ⟨before, rfl⟩
    rw [String.toList_append]
    exact List.suffix_append _ _
  · rintro ⟨before, split⟩
    refine ⟨String.ofList before, String.toList_inj.mp ?_⟩
    rw [String.toList_append, String.toList_ofList, split]

theorem exists_append_append_iff {part s : String} :
    (∃ before after, s = before ++ part ++ after) ↔ part.toList <:+: s.toList := by
  constructor
  · rintro ⟨before, after, rfl⟩
    rw [String.toList_append, String.toList_append]
    exact List.infix_append _ _ _
  · rintro ⟨before, after, split⟩
    refine ⟨String.ofList before, String.ofList after, String.toList_inj.mp ?_⟩
    rw [String.toList_append, String.toList_append, String.toList_ofList, String.toList_ofList,
      split]

/-- The bytes of a text that is not empty start with the first byte of a character, so wherever they
stand in the bytes of another text, a character of that one starts there. -/
theorem isValid_of_bytes {part s : String} {before after : ByteArray} (some_char : part ≠ "")
    (bytes : s.toByteArray = before ++ part.toByteArray ++ after) :
    String.Pos.Raw.IsValid s ⟨before.size⟩ := by
  have positive : 0 < part.utf8ByteSize := by
    rw [Nat.pos_iff_ne_zero, ne_eq, String.utf8ByteSize_eq_zero_iff]
    exact some_char
  have within : (⟨before.size⟩ : String.Pos.Raw) < s.rawEndPos := by
    rw [String.Pos.Raw.lt_iff, String.byteIdx_rawEndPos, ← String.size_toByteArray, bytes]
    simp
    omega
  have first : (s.getUTF8Byte ⟨before.size⟩ within).IsUTF8FirstByte := by
    have own := String.isUTF8FirstByte_getUTF8Byte_zero (b := part) (h := by
      simpa [String.Pos.Raw.lt_iff] using positive)
    unfold String.getUTF8Byte at own ⊢
    simp only [bytes, ByteArray.append_assoc]
    rw [ByteArray.getElem_append_right (Nat.le_refl _)]
    simp only [Nat.sub_self]
    rwa [ByteArray.getElem_append_left]
  exact String.Pos.Raw.isValid_iff_isUTF8FirstByte.mpr (Or.inr ⟨within, first⟩)

/-- So the other text can be cut before them and after them. -/
theorem exists_eq_append_of_bytes {part s : String} {before after : ByteArray}
    (some_char : part ≠ "")
    (bytes : s.toByteArray = before ++ part.toByteArray ++ after) :
    ∃ front back : String, s = front ++ part ++ back ∧ front.toByteArray = before ∧
      back.toByteArray = after := by
  obtain ⟨front, rest, split, at_start⟩ :=
    String.Pos.Raw.isValid_iff_exists_append.mp (isValid_of_bytes some_char bytes)
  have size : before.size = front.toByteArray.size := by
    simpa [String.Pos.Raw.ext_iff] using at_start
  rw [split, String.toByteArray_append, ByteArray.append_assoc, eq_comm,
    ByteArray.append_eq_append_iff_of_size_eq_left size] at bytes
  obtain ⟨same, bytes⟩ := bytes
  have taken : part.toList <+: rest.toList := by
    apply List.isPrefix_of_utf8Encode_append_eq_utf8Encode after
    rw [String.utf8Encode_toList, String.utf8Encode_toList, bytes]
  obtain ⟨back, rfl⟩ := exists_eq_append_iff.mpr taken
  rw [String.toByteArray_append, ByteArray.append_right_inj] at bytes
  exact ⟨front, back, by rw [split, String.append_assoc], same.symm, bytes.symm⟩

end Text

namespace StringOperation

/-- How a value and a literal lie for the operation to hold of them, be they made of characters or
of bytes. -/
def Relates {α : Type} [Append α] (operation : StringOperation) (value literal : α) : Prop :=
  match operation with
  | .eq => value = literal
  | .startsWith => ∃ after, value = literal ++ after
  | .endsWith => ∃ before, value = before ++ literal
  | .contains => ∃ before after, value = before ++ literal ++ after

variable {value literal : String}

theorem holds_iff_relates (operation : StringOperation) (value literal : String) :
    operation.holds value literal = true ↔ operation.Relates value literal := by
  cases operation with
  | eq => simp [holds, Relates]
  | startsWith => simp [holds, Relates, Text.exists_eq_append_iff]
  | endsWith => simp [holds, Relates, Text.exists_append_eq_iff]
  | contains => simp [holds, Relates, Text.occursIn_iff, Text.exists_append_append_iff]

/-- The empty literal stands in every text, at both ends. -/
theorem relates_empty (operation : StringOperation) :
    operation.Relates value "" ↔ operation = .eq → value = "" := by
  cases operation with
  | eq => simp [Relates]
  | startsWith => simp [Relates]
  | endsWith => simp [Relates]
  | contains => simpa [Relates] using ⟨value, "", by simp⟩

theorem relates_toByteArray {operation : StringOperation} (h : operation.Relates value literal) :
    operation.Relates value.toByteArray literal.toByteArray := by
  cases operation with
  | eq => exact congrArg String.toByteArray h
  | startsWith =>
    obtain ⟨after, rfl⟩ := h
    exact ⟨after.toByteArray, String.toByteArray_append⟩
  | endsWith =>
    obtain ⟨before, rfl⟩ := h
    exact ⟨before.toByteArray, String.toByteArray_append⟩
  | contains =>
    obtain ⟨before, after, rfl⟩ := h
    refine ⟨before.toByteArray, after.toByteArray, ?_⟩
    rw [String.toByteArray_append, String.toByteArray_append]

/-- Comparing bytes finds nothing that comparing characters does not. -/
theorem relates_of_toByteArray {operation : StringOperation}
    (h : operation.Relates value.toByteArray literal.toByteArray) :
    operation.Relates value literal := by
  by_cases empty : literal = ""
  · rw [empty, relates_empty]
    rintro rfl
    rw [empty] at h
    exact String.toByteArray_inj.mp h
  · cases operation with
    | eq => exact String.toByteArray_inj.mp h
    | startsWith =>
      obtain ⟨after, bytes⟩ := h
      have bytes : value.toByteArray = .empty ++ literal.toByteArray ++ after := by
        simpa using bytes
      obtain ⟨front, back, split, nothing, _⟩ := Text.exists_eq_append_of_bytes empty bytes
      have no_front : front = "" := String.toByteArray_inj.mp nothing
      exact ⟨back, by simpa [no_front] using split⟩
    | endsWith =>
      obtain ⟨before, bytes⟩ := h
      have bytes : value.toByteArray = before ++ literal.toByteArray ++ .empty := by
        simpa using bytes
      obtain ⟨front, back, split, _, nothing⟩ := Text.exists_eq_append_of_bytes empty bytes
      have no_back : back = "" := String.toByteArray_inj.mp nothing
      exact ⟨front, by simpa [no_back] using split⟩
    | contains =>
      obtain ⟨before, after, bytes⟩ := h
      obtain ⟨front, back, split, _⟩ := Text.exists_eq_append_of_bytes empty bytes
      exact ⟨front, back, split⟩

end StringOperation

namespace Leaf

theorem value_run_string_iff {offset : UtcOffset} {r : Record} {name literal : String}
    {operation : StringOperation} :
    ((string ⟨name, operation, literal⟩).run offset r).value = true ↔
      ∃ value, r.get? name = some (.text value) ∧ value ≠ "" ∧
        operation.Relates value literal := by
  rw [run_eq_onField]
  change ((string ⟨name, operation, literal⟩).onField offset (r.get? name)).value = true ↔ _
  cases r.get? name with
  | none => simp [onField, pure]
  | some field =>
    cases field with
    | bool b => simp [onField]
    | number x => simp [onField]
    | date t => simp [onField]
    | text value =>
      simp [onField, pure, isEmptyText, operation.holds_iff_relates]

end Leaf

namespace Filter

variable {o : Options} {r : Record} {name literal : String}

theorem accepts_string_iff {operation : StringOperation} :
    (Filter.string name operation literal).accepts o r = true ↔ o.maxDepth ≠ some 0 ∧
      ∃ value, r.get? name = some (.text value) ∧ value ≠ "" ∧
        operation.Relates value literal := by
  rw [Filter.string, accepts_leaf, Leaf.value_run_string_iff]

/-- An operation gives way to another wherever the one relation implies the other. -/
theorem accepts_string_of_relates {operation other : StringOperation} {literal' : String}
    (implied : ∀ value : String, operation.Relates value literal → other.Relates value literal')
    (h : (Filter.string name operation literal).accepts o r = true) :
    (Filter.string name other literal').accepts o r = true := by
  obtain ⟨budget, value, held, some_char, relates⟩ := accepts_string_iff.mp h
  exact accepts_string_iff.mpr ⟨budget, value, held, some_char, implied value relates⟩

theorem accepts_string_iff_relates {operation : StringOperation} {value : String}
    (budget : o.maxDepth ≠ some 0) (held : r.get? name = some (.text value))
    (some_char : value ≠ "") :
    (Filter.string name operation literal).accepts o r = true ↔
      operation.Relates value literal := by
  rw [accepts_string_iff]
  constructor
  · rintro ⟨_, other, held', _, relates⟩
    rw [held] at held'
    cases held'
    exact relates
  · intro relates
    exact ⟨budget, value, held, some_char, relates⟩

/-- **String leaves mean what they say.** A leaf matches only a field that holds text, and not the
empty one. It then matches exactly if the text is the literal, or starts or ends with it, or has it
somewhere inside, under any options whose depth budget lets the leaf be looked at; characters and
the bytes that encode them come to the same, and the empty literal is part of every text though
equal to none. So a match of `eq` is one of `startsWith` and of `endsWith`, each of these is one of
`contains`, and whatever stands inside a literal that a field contains is contained too. -/
theorem string_leaves_match_as_named (r : Record) (name literal : String) (o : Options) :
    (∀ operation, (Filter.string name operation literal).accepts o r = true →
      ∃ value, r.get? name = some (.text value) ∧ value ≠ "") ∧
    (o.maxDepth ≠ some 0 → ∀ value, r.get? name = some (.text value) → value ≠ "" →
      ((Filter.string name .eq literal).accepts o r = true ↔ value = literal) ∧
      ((Filter.string name .startsWith literal).accepts o r = true ↔
        ∃ after, value = literal ++ after) ∧
      ((Filter.string name .endsWith literal).accepts o r = true ↔
        ∃ before, value = before ++ literal) ∧
      ((Filter.string name .contains literal).accepts o r = true ↔
        ∃ before after, value = before ++ literal ++ after) ∧
      ∀ operation,
        ((Filter.string name operation literal).accepts o r = true ↔
          operation.Relates value.toByteArray literal.toByteArray) ∧
        ((Filter.string name operation "").accepts o r = true ↔ operation ≠ .eq)) ∧
    ((Filter.string name .eq literal).accepts o r = true →
      (Filter.string name .startsWith literal).accepts o r = true ∧
        (Filter.string name .endsWith literal).accepts o r = true) ∧
    ((Filter.string name .startsWith literal).accepts o r = true ∨
        (Filter.string name .endsWith literal).accepts o r = true →
      (Filter.string name .contains literal).accepts o r = true) ∧
    ∀ inner, (∃ before after, literal = before ++ inner ++ after) →
      (Filter.string name .contains literal).accepts o r = true →
      (Filter.string name .contains inner).accepts o r = true := by
  refine ⟨?_, ?_, ?_, ?_, ?_⟩
  · intro operation accepted
    obtain ⟨_, value, held, some_char, _⟩ := accepts_string_iff.mp accepted
    exact ⟨value, held, some_char⟩
  · intro budget value held some_char
    have relates (operation : StringOperation) (literal : String) :
        (Filter.string name operation literal).accepts o r = true ↔
          operation.Relates value literal :=
      accepts_string_iff_relates budget held some_char
    refine ⟨relates .eq literal, relates .startsWith literal, relates .endsWith literal,
      relates .contains literal, fun operation => ⟨?_, ?_⟩⟩
    · rw [relates]
      exact ⟨StringOperation.relates_toByteArray, StringOperation.relates_of_toByteArray⟩
    · rw [relates, StringOperation.relates_empty]
      simp [some_char]
  · intro equal
    constructor
    · apply accepts_string_of_relates _ equal
      rintro value rfl
      exact ⟨"", by simp⟩
    · apply accepts_string_of_relates _ equal
      rintro value rfl
      exact ⟨"", by simp⟩
  · rintro (starts | ends)
    · apply accepts_string_of_relates _ starts
      rintro value ⟨after, split⟩
      exact ⟨"", after, by simpa using split⟩
    · apply accepts_string_of_relates _ ends
      rintro value ⟨before, split⟩
      exact ⟨before, "", by simpa using split⟩
  · rintro inner ⟨before, after, rfl⟩ contained
    apply accepts_string_of_relates _ contained
    rintro value ⟨front, back, split⟩
    refine ⟨front ++ before, after ++ back, ?_⟩
    simpa only [String.append_assoc] using split

/-- A part that overlaps with itself and has a character of two bytes in it. -/
theorem overlapping_part_contained :
    (Options.default.maxDepth ≠ some 0 ∧
      (Record.empty.insert "s" (.text "añaña")).get? "s" = some (.text "añaña") ∧
      ((Filter.string "s" .endsWith "ñaña").accepts .default
          (Record.empty.insert "s" (.text "añaña")) = true ↔
        ∃ before, "añaña" = before ++ "ñaña")) ∧
    (Filter.string "s" .contains "ñaña").accepts .default
      (Record.empty.insert "s" (.text "añaña")) = true ∧
    (Filter.string "s" .contains "aña").accepts .default
      (Record.empty.insert "s" (.text "añaña")) = true := by
  have held : (Record.empty.insert "s" (.text "añaña")).get? "s" = some (.text "añaña") := by
    rw [Record.get?_insert, if_pos rfl]
  have budget : Options.default.maxDepth ≠ some 0 := by decide
  obtain ⟨_, means, _, ends, inside⟩ := string_leaves_match_as_named
    (Record.empty.insert "s" (.text "añaña")) "s" "ñaña" .default
  obtain ⟨_, _, ends_iff, _⟩ := means budget "añaña" held (by decide)
  have contained := ends (Or.inr (ends_iff.mpr ⟨"a", by decide⟩))
  exact ⟨⟨budget, held, ends_iff⟩, contained, inside "aña" ⟨"ñ", "", by decide⟩ contained⟩

end Filter

end Sieve
