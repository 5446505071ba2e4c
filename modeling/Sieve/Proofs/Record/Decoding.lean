import Sieve.Proofs.Binary64
import Sieve.Proofs.Json.ReadSpelled
import Sieve.Proofs.Record.Loading

/-!
Records decoded from any text of an object. One entry with brackets refuses the whole text, also
where a later entry of its name would have replaced it. Null takes part in the replacing and is
dropped only then, so that a field is what the last entry of its name says.
-/

namespace Sieve

open Json
open Assoc (IsLast Named)

namespace Json

/-- A value without brackets: null, a boolean, a number or a string. -/
def isScalar : Json → Bool
  | .null => true
  | .bool _ => true
  | .number _ => true
  | .string _ => true
  | .array _ => false
  | .object _ => false

/-- What a scalar is as a field. Null is no field, and text is never taken for a date. -/
def field? : Json → Option FieldValue
  | .bool b => some (.bool b)
  | .number n => some (.number n.toBinary64)
  | .string s => some (.text s)
  | .null => none
  | .array _ => none
  | .object _ => none

theorem field?_eq_none_iff {v : Json} (scalar : v.isScalar = true) : v.field? = none ↔ v = .null := by
  cases v <;> simp_all [field?, isScalar]

theorem isScalar_of_spelled {v : Json} {text : List Char} (h : SpellsScalar v text) :
    v.isScalar = true := by
  cases h <;> rfl

/-- Whatever follows an open bracket, the value has brackets if there is one at all. -/
theorem isScalar_of_bracket {c : Char} (bracket : c = '[' ∨ c = '{') {budget : Nat}
    {cs rest : List Char} {v : Json} (read : Reader.value budget (c :: cs) = .ok (v, rest)) :
    v.isScalar = false := by
  cases budget with
  | zero => rcases bracket with rfl | rfl <;> cases read
  | succ budget =>
    rcases bracket with rfl | rfl
    · rw [value_bracket] at read
      obtain ⟨found, _, made⟩ := bind_eq_ok_iff.mp read
      cases made
      rfl
    · rw [value_brace] at read
      obtain ⟨found, _, made⟩ := bind_eq_ok_iff.mp read
      cases made
      rfl

end Json

/-- A value that a text can give: never a date, and no number that is not finite. -/
def FieldValue.IsPlain : FieldValue → Prop
  | .bool _ => True
  | .number x => x.isFinite = true
  | .text _ => True
  | .date _ => False

namespace Record

/-- What an entry with this value adds to a record, which may be nothing. Brackets are refused. -/
def entryOf? (v : Json) : Option (Option FieldValue) := if v.isScalar then some v.field? else none

theorem entryValue_blanks {before : List Char} (blank : Blanks before) (budget : Nat)
    (cs : List Char) : entryValue budget (before ++ cs) = entryValue budget cs := by
  unfold entryValue
  rw [value_blanks blank]

/-- What starts with a bracket is refused, whether it is read as a value or not. -/
theorem entryValue_bracket {c : Char} (bracket : c = '[' ∨ c = '{') (budget : Nat)
    (cs : List Char) : (entryValue budget (c :: cs)).toOption = none := by
  unfold entryValue
  rw [toOption_bind]
  cases read : Reader.value budget (c :: cs) with
  | error stop => rfl
  | ok found =>
    obtain ⟨w, after⟩ := found
    have nested : w.isScalar = false := isScalar_of_bracket bracket read
    cases w with
    | array items => rfl
    | object members => rfl
    | _ => cases nested

theorem entryValue_takes {depth : Nat} {v : Json} {text : List Char} (h : Spells depth v text)
    (budget : Nat) : Takes (entryValue budget) text (entryOf? v) := by
  intro before rest blank ends
  rcases spells_cases h with spelled | ⟨items, inner, rfl, rfl⟩ | ⟨members, inner, rfl, rfl⟩
  · have read := scalar_takes spelled budget before rest blank ends
    unfold entryValue
    rw [toOption_bind, read]
    cases spelled <;> rfl
  · rw [entryValue_blanks blank]
    exact entryValue_bracket (Or.inl rfl) budget (inner ++ rest)
  · rw [entryValue_blanks blank]
    exact entryValue_bracket (Or.inr rfl) budget (inner ++ rest)

/-- All entries are taken if all of them are scalars, and otherwise none is. -/
theorem mapM_entryOf? (entries : List (String × Json)) :
    (entries.mapM fun entry => (entryOf? entry.2).map (entry.1, ·)) =
      if entries.all (·.2.isScalar) then
        some (entries.map fun entry => (entry.1, entry.2.field?))
      else none := by
  induction entries with
  | nil => rfl
  | cons entry entries ih =>
    rw [List.mapM_cons, ih, List.all_cons]
    by_cases first : entry.2.isScalar = true
    · by_cases later : entries.all (·.2.isScalar) = true
      · simp [entryOf?, first, later]
      · simp [entryOf?, first, later]
    · simp [entryOf?, first]

theorem reader_takes {depth : Nat} {entries : List (String × Json)} {text : List Char}
    (h : SpellsObject depth entries text) (budget : Nat) :
    Takes (reader (budget + 1)) text
      (if entries.all (·.2.isScalar) then
        some (ofEntries (entries.map fun entry => (entry.1, entry.2.field?)))
      else none) := by
  intro before rest blank ends
  obtain ⟨inner, spelled, rfl⟩ := h
  have each (v : Json) (text : List Char) (h : Spells depth v text) :
      Takes (entryValue budget) text (entryOf? v) := entryValue_takes h budget
  have read := members_takes each spelled rest
  have start := scalar_brace blank (inner ++ rest)
  have opens : reader (budget + 1) (before ++ '{' :: (inner ++ rest)) =
      (Reader.members (entryValue budget) (inner ++ rest) >>= fun found =>
        pure (ofEntries found.1, found.2)) := by
    unfold reader
    rw [start]
    rfl
  rw [List.cons_append, opens, toOption_bind, read, mapM_entryOf?]
  by_cases scalars : entries.all (·.2.isScalar) = true
  · rw [if_pos scalars, if_pos scalars]
    rfl
  · rw [if_neg scalars, if_neg scalars]
    rfl

theorem ofText_eq_ok_iff {depth : Nat} {entries : List (String × Json)} {text : String}
    (h : SpellsWhole (SpellsObject depth) entries text) {r : Record} :
    ofText text = .ok r ↔ (∀ entry ∈ entries, entry.2.isScalar = true) ∧
      ofEntries (entries.map fun entry => (entry.1, entry.2.field?)) = r := by
  obtain ⟨before, inner, after, blank, spelled, blank', whole⟩ := h
  have read := run_spelled (reader_takes spelled 126) blank blank' whole
  have decoded : (ofText text).toOption = some r ↔ entries.all (·.2.isScalar) = true ∧
      ofEntries (entries.map fun entry => (entry.1, entry.2.field?)) = r := by
    change ((reader 127).run text).toOption = some r ↔ _
    rw [read]
    by_cases scalars : entries.all (·.2.isScalar) = true
    · simp [scalars]
    · simp [scalars]
  rw [← toOption_eq_some_iff, decoded, List.all_eq_true]

/-- A field is what the last entry of its name stands for. -/
theorem get?_eq_some_iff_last {entries : List (String × Json)} {name : String}
    {value : FieldValue} :
    (ofEntries (entries.map fun entry => (entry.1, entry.2.field?))).get? name = some value ↔
      ∃ v, IsLast entries name v ∧ v.field? = some value := by
  have looked := Assoc.lookup_map (fun _ v => Json.field? v) name entries.reverse
  rw [get?_ofEntries, ← List.map_reverse, looked]
  simp only [← Assoc.lookup_reverse_eq_some_iff]
  cases entries.reverse.lookup name <;> simp

/-- An entry of any loaded text gives a plain value or none. -/
theorem isPlain_of_entryOfJson {v : Json} {value : FieldValue}
    (h : entryOfJson v = .ok (some value)) : value.IsPlain := by
  cases v with
  | bool b => cases h; trivial
  | number n => cases h; exact n.isFinite_toBinary64
  | string s => cases h; trivial
  | _ => cases h

theorem isPlain_of_mem {members : List (String × Json)}
    {entries : List (String × Option FieldValue)}
    (named : List.Forall₂ (Named fun v value? => entryOfJson v = .ok value?) members entries)
    {name : String} {value : FieldValue} (h : (name, some value) ∈ entries) : value.IsPlain := by
  induction named with
  | nil => cases h
  | cons first _ ih =>
    rcases List.mem_cons.mp h with rfl | later
    · exact isPlain_of_entryOfJson first.2
    · exact ih later

theorem isPlain_of_ofText {text : String} {r : Record} (h : ofText text = .ok r) {name : String}
    {value : FieldValue} (held : r.get? name = some value) : value.IsPlain := by
  obtain ⟨v, _, loaded⟩ := ofJson_of_ofText h
  obtain ⟨members, rfl⟩ := exists_members_of_ofJson loaded
  obtain ⟨entries, named, rfl⟩ := ofJson_object_eq_ok_iff.mp loaded
  rw [get?_ofEntries] at held
  have given : entries.reverse.lookup name = some (some value) := by
    cases last : entries.reverse.lookup name with
    | none => simp [last] at held
    | some value? => simpa [last] using held
  exact isPlain_of_mem named (Assoc.lookup_reverse_eq_some_iff.mp given).mem

/-- **Records from text.** The text of an object, its entries and blanks spelled in any way, is a
record if and only if all its entries are scalars, those replaced later included. A field of it is
then what the last entry of the name stands for, there is none where this entry is null, and the
size counts the names whose last entry is not null. Whatever text a record comes from, it holds no
date and no number that is not finite. -/
theorem ofText_last_entries :
    (∀ depth entries text, SpellsWhole (SpellsObject depth) entries text →
      ((∃ r, ofText text = .ok r) ↔ ∀ entry ∈ entries, entry.2.isScalar = true) ∧
      ∀ r, ofText text = .ok r →
        (∀ name value, r.get? name = some value ↔
          ∃ v, IsLast entries name v ∧ v.field? = some value) ∧
        r.size = {name | ∃ v, IsLast entries name v ∧ v ≠ .null}.ncard) ∧
    ∀ text r, ofText text = .ok r → ∀ name value, r.get? name = some value → value.IsPlain := by
  refine ⟨?_, fun text r h name value held => isPlain_of_ofText h held⟩
  intro depth entries text spelled
  constructor
  · constructor
    · rintro ⟨r, h⟩
      exact ((ofText_eq_ok_iff spelled).mp h).1
    · intro scalars
      exact ⟨_, (ofText_eq_ok_iff spelled).mpr ⟨scalars, rfl⟩⟩
  · intro r h
    obtain ⟨scalars, rfl⟩ := (ofText_eq_ok_iff spelled).mp h
    refine ⟨fun name value => get?_eq_some_iff_last, ?_⟩
    rw [size_eq_ncard]
    congr 1
    ext name
    simp only [Set.mem_ofPred_eq, get?_eq_some_iff_last]
    constructor
    · rintro ⟨value, v, last, field⟩
      refine ⟨v, last, ?_⟩
      rintro rfl
      cases field
    · rintro ⟨v, last, not_null⟩
      have scalar : v.isScalar = true := scalars (name, v) last.mem
      obtain ⟨value, field⟩ := Option.ne_none_iff_exists'.mp
        (fun none => not_null ((field?_eq_none_iff scalar).mp none))
      exact ⟨value, v, last, field⟩

/-- A name that is spelled again with null, and a list that is replaced too late. -/
theorem null_replaces_and_list_refuses :
    (∃ r, ofText " \x7b\"a\" : -7,\"b\":\"2023-06-15\",\"\\u0061\":null\x7d" = .ok r ∧
      r.get? "a" = none ∧ r.get? "b" = some (.text "2023-06-15")) ∧
    ¬∃ r, ofText "\x7b\"a\":[-7],\"a\":true\x7d" = .ok r := by
  have named (s : String) : SpellsString s (quote s.toList) := spellsString_quote s
  have minus_seven : SpellsNumber (.whole (-7) (by decide) (by decide)) "-7".toList :=
    ⟨⟨true, ['7'], none, none⟩,
      ⟨⟨by simp, List.forall_mem_singleton.mpr rfl⟩, by simp, by simp, by simp⟩,
      ⟨[], .absent, rfl⟩, rfl⟩
  have code : SpellsCode 'a'.toNat ['0', '0', '6', '1'] :=
    .cons ⟨by decide, Or.inl rfl⟩ (.cons ⟨by decide, Or.inl rfl⟩
      (.cons ⟨by decide, Or.inl rfl⟩ (.cons ⟨by decide, Or.inl rfl⟩ .nil)))
  have escaped : SpellsString "a" "\"\\u0061\"".toList := ⟨_, .cons (.code code) .nil, rfl⟩
  have space : Blanks [' '] := by simp [Blanks]
  constructor
  · have spelled : SpellsWhole (SpellsObject 0)
        [("a", .number (.whole (-7) (by decide) (by decide))), ("b", .string "2023-06-15"),
          ("a", .null)]
        " \x7b\"a\" : -7,\"b\":\"2023-06-15\",\"\\u0061\":null\x7d" :=
      ⟨_, _, _, space,
        ⟨_, .first blanks_nil (.mk (named "a") space space (.number minus_seven))
          (.comma blanks_nil blanks_nil
            (.mk (named "b") blanks_nil blanks_nil (.string (named "2023-06-15")))
            (.comma blanks_nil blanks_nil (.mk escaped blanks_nil blanks_nil .null)
              (.close blanks_nil))), rfl⟩, blanks_nil, by decide +kernel⟩
    have decoded := ofText_last_entries.1 _ _ _ spelled
    obtain ⟨r, read⟩ := decoded.1.mpr (by simp [isScalar])
    have fields := (decoded.2 r read).1
    refine ⟨r, read, ?_, ?_⟩
    · rw [Option.eq_none_iff_forall_ne_some]
      intro value held
      obtain ⟨v, last, field⟩ := (fields "a" value).mp held
      have looked := Assoc.lookup_reverse_eq_some_iff.mpr last
      cases looked
      cases field
    · exact (fields "b" _).mpr ⟨_, Assoc.lookup_reverse_eq_some_iff.mp rfl, rfl⟩
  · have spelled : SpellsWhole (SpellsObject 1)
        [("a", .array [.number (.whole (-7) (by decide) (by decide))]), ("a", .bool true)]
        "\x7b\"a\":[-7],\"a\":true\x7d" :=
      ⟨_, _, _, blanks_nil,
        ⟨_, .first blanks_nil (.mk (named "a") blanks_nil blanks_nil
            (.array (.first blanks_nil (.number minus_seven) (.close blanks_nil))))
          (.comma blanks_nil blanks_nil
            (.mk (named "a") blanks_nil blanks_nil (.scalar .true)) (.close blanks_nil)), rfl⟩,
        blanks_nil, by decide +kernel⟩
    rw [(ofText_last_entries.1 _ _ _ spelled).1]
    simp [isScalar]

end Record

end Sieve
