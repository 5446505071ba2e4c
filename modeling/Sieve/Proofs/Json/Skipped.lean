import Sieve.Json.Skip
import Sieve.Proofs.Json.ReadSpelled

/-!
Values that are passed over. What is passed over goes by the form of its text alone: a number may be
of any size, a code need stand for no character, and brackets may be nested to any depth. Every such
text is passed with nothing after it, and whatever is written has this form.
-/

namespace Sieve.Json

open Reader

/-- One step through a string. A pair of codes is two steps, and either may stand alone. -/
inductive FormedChar : List Char → Prop
  | itself {c : Char} (printable : 0x20 ≤ c.toNat) (notQuote : c ≠ '"') (notBackslash : c ≠ '\\') :
      FormedChar [c]
  | letter {letter c : Char} (stands : (letter, c) ∈ letterEscapes) : FormedChar ['\\', letter]
  | code {code : Nat} {text : List Char} (code : SpellsCode code text) :
      FormedChar ('\\' :: 'u' :: text)

/-- A string in quotes, in so many steps. -/
def FormedString (text : List Char) : Prop :=
  ∃ steps : List (List Char), (∀ step ∈ steps, FormedChar step) ∧
    text = '"' :: (steps.flatten ++ ['"'])

/-- A value without brackets. -/
inductive FormedScalar : List Char → Prop
  | null : FormedScalar "null".toList
  | true : FormedScalar "true".toList
  | false : FormedScalar "false".toList
  | number {numeral : Numeral} {text : List Char} (proper : numeral.Proper)
      (spelled : numeral.Spells text) : FormedScalar text
  | string {text : List Char} (formed : FormedString text) : FormedScalar text

/-- An entry that is known by its text. -/
def Verbatim (formed : List Char → Prop) (entry text : List Char) : Prop :=
  text = entry ∧ formed text

/-- A value whose items or members have a form of their own. -/
inductive FormedOver (inner : List Char → Prop) : List Char → Prop
  | scalar {text : List Char} (formed : FormedScalar text) : FormedOver inner text
  | array {items : List (List Char)} {text : List Char}
      (spelled : SpellsEntries (Verbatim inner) ']' items text) : FormedOver inner ('[' :: text)
  | object {entries : List (String × List Char)} {text : List Char}
      (spelled : SpellsEntries (SpellsMember (Verbatim inner)) '}' entries text) :
      FormedOver inner ('{' :: text)

/-- A value with brackets nested at most so deep. -/
def Formed : Nat → List Char → Prop
  | 0 => FormedScalar
  | depth + 1 => FormedOver (Formed depth)

/-- A value of this depth that is shorter than so many characters. -/
def FormedWithin (depth size : Nat) (text : List Char) : Prop :=
  Formed depth text ∧ text.length < size

/-- An object whose members have these names and texts, as they stand there. -/
def FormedObject (depth : Nat) (entries : List (String × List Char)) (text : List Char) : Prop :=
  ∃ inner, SpellsEntries (SpellsMember (Verbatim (Formed depth))) '}' entries inner ∧
    text = '{' :: inner

theorem formed_of_scalar {text : List Char} (h : FormedScalar text) (depth : Nat) :
    Formed depth text := by
  cases depth with
  | zero => exact h
  | succ depth => exact .scalar h

theorem exists_steps_of_spelled {s text : List Char} (h : SpellsChars s text) :
    ∃ steps : List (List Char), (∀ step ∈ steps, FormedChar step) ∧ text = steps.flatten := by
  induction h with
  | nil => exact ⟨[], by simp, rfl⟩
  | cons first _ ih =>
    obtain ⟨steps, formed, rfl⟩ := ih
    cases first with
    | itself printable notQuote notBackslash =>
      have step : FormedChar _ := .itself printable notQuote notBackslash
      exact ⟨_ :: steps, List.forall_mem_cons.mpr ⟨step, formed⟩, rfl⟩
    | letter stands =>
      exact ⟨_ :: steps, List.forall_mem_cons.mpr ⟨.letter stands, formed⟩, rfl⟩
    | code code => exact ⟨_ :: steps, List.forall_mem_cons.mpr ⟨.code code, formed⟩, rfl⟩
    | pair past first second =>
      have both := List.forall_mem_cons.mpr ⟨.code second, formed⟩
      exact ⟨_ :: _ :: steps, List.forall_mem_cons.mpr ⟨.code first, both⟩, by simp⟩

theorem formedString_of_spelled {s : String} {text : List Char} (h : SpellsString s text) :
    FormedString text := by
  obtain ⟨inner, spelled, rfl⟩ := h
  obtain ⟨steps, formed, rfl⟩ := exists_steps_of_spelled spelled
  exact ⟨steps, formed, rfl⟩

section Strings

theorem skipQuotedChar_formed {step : List Char} (h : FormedChar step) (rest : List Char) :
    skipQuotedChar (step ++ rest) = .ok (some (), rest) := by
  cases h with
  | itself printable notQuote notBackslash =>
    rw [List.cons_append, List.nil_append, skipQuotedChar.eq_def]
    split
    · rename_i nothing
      cases nothing
    · rename_i here
      cases here
      exact absurd rfl notQuote
    · rename_i here
      cases here
      exact absurd rfl notBackslash
    · rename_i here
      cases here
      exact if_neg (by omega)
  | letter stands =>
    simp only [letterEscapes, List.mem_cons, Prod.mk.injEq, List.not_mem_nil, or_false] at stands
    rcases stands with ⟨rfl, rfl⟩ | ⟨rfl, rfl⟩ | ⟨rfl, rfl⟩ | ⟨rfl, rfl⟩ | ⟨rfl, rfl⟩ | ⟨rfl, rfl⟩ |
      ⟨rfl, rfl⟩ | ⟨rfl, rfl⟩ <;> rfl
  | @code _ text code =>
    have read := hexCode_spelled code rest
    simp only [List.cons_append, skipQuotedChar, skipEscaped, read, bind, Except.bind]
    rfl

theorem FormedChar.length_pos {step : List Char} (h : FormedChar step) : 0 < step.length := by
  cases h with
  | itself => exact Nat.succ_pos _
  | letter => exact Nat.succ_pos _
  | code => exact Nat.succ_pos _

/-- As many rounds as there are steps and one for the closing quote. -/
theorem collect_go_formed {steps : List (List Char)} (formed : ∀ step ∈ steps, FormedChar step)
    (rounds : Nat) (held : List Unit) (rest : List Char) (enough : steps.length < rounds) :
    ∃ units, collect.go skipQuotedChar rounds held (steps.flatten ++ '"' :: rest) =
      .ok (units, rest) := by
  induction steps generalizing rounds held with
  | nil =>
    obtain ⟨rounds, rfl⟩ := Nat.exists_eq_succ_of_ne_zero (by omega : rounds ≠ 0)
    exact ⟨held.reverse, rfl⟩
  | cons step steps ih =>
    obtain ⟨rounds, rfl⟩ := Nat.exists_eq_succ_of_ne_zero (by omega : rounds ≠ 0)
    obtain ⟨first, later⟩ := List.forall_mem_cons.mp formed
    have read := skipQuotedChar_formed first (steps.flatten ++ '"' :: rest)
    rw [List.length_cons] at enough
    rw [List.flatten_cons, List.append_assoc, collect.go, read]
    exact ih later rounds (() :: held) (by omega)

theorem length_le_flatten {steps : List (List Char)} (formed : ∀ step ∈ steps, FormedChar step) :
    steps.length ≤ steps.flatten.length := by
  induction steps with
  | nil => exact Nat.le_refl _
  | cons step steps ih =>
    obtain ⟨first, later⟩ := List.forall_mem_cons.mp formed
    have some_text := first.length_pos
    have others := ih later
    rw [List.length_cons, List.flatten_cons, List.length_append]
    omega

/-- A string as it is met after its opening quote. -/
theorem skipQuoted_formed {text : List Char} (h : FormedString text) :
    ∃ inner, text = '"' :: inner ∧ ∀ rest, skipQuoted (inner ++ rest) = .ok ((), rest) := by
  obtain ⟨steps, formed, rfl⟩ := h
  refine ⟨steps.flatten ++ ['"'], rfl, ?_⟩
  intro rest
  have enough : steps.length < (steps.flatten ++ '"' :: rest).length + 1 := by
    have := length_le_flatten formed
    rw [List.length_append]
    omega
  obtain ⟨units, read⟩ := collect_go_formed formed _ [].reverse rest enough
  have all : collect skipQuotedChar [] (steps.flatten ++ '"' :: rest) = .ok (units, rest) := read
  rw [List.append_assoc, List.singleton_append, skipQuoted, all]
  rfl

end Strings

section Entries

variable {α : Type} {one other : α → List Char → Prop} {close : Char} {entries : List α}
  {text : List Char}

/-- Every entry is a part of the text between the brackets, so it may be taken to be no longer. -/
theorem SpellsMore.imp (h : SpellsMore one close entries text)
    (each : ∀ a part, part.length ≤ text.length → one a part → other a part) :
    SpellsMore other close entries text := by
  induction h with
  | close blank => exact .close blank
  | comma blank blank' entry later ih =>
    simp only [List.length_append, List.length_cons] at each
    refine .comma blank blank' (each _ _ (by omega) entry) (ih ?_)
    intro a part short
    exact each a part (by omega)

theorem SpellsEntries.imp (h : SpellsEntries one close entries text)
    (each : ∀ a part, part.length ≤ text.length → one a part → other a part) :
    SpellsEntries other close entries text := by
  cases h with
  | empty blank => exact .empty blank
  | first blank entry later =>
    simp only [List.length_append] at each
    refine .first blank (each _ _ (by omega) entry) (later.imp ?_)
    intro a part short
    exact each a part (by omega)

theorem SpellsMember.imp {entry : String × α} (h : SpellsMember one entry text)
    (each : ∀ a part, part.length ≤ text.length → one a part → other a part) :
    SpellsMember other entry text := by
  cases h with
  | mk named blank blank' value =>
    refine .mk named blank blank' (each _ _ ?_ value)
    simp only [List.length_append, List.length_cons]
    omega

end Entries

section Loops

variable {β : Type} {item : Reader Unit} {one : β → List Char → Prop} {close : Char}
  {entries : List β} {text : List Char}

theorem collect_skips {step : Reader (Option Unit)}
    (steps : TakesNext step one close fun _ => some ()) (closes : close ∈ [']', '}'])
    (h : SpellsMore one close entries text) (rest : List Char) :
    ∃ units, collect step [] (text ++ rest) = .ok (units, rest) := by
  have enough : entries.length < (text ++ rest).length + 1 := by
    have := h.length_le
    rw [List.length_append]
    omega
  have all : (entries.mapM fun _ => some ()) = some (entries.map fun _ => ()) := List.mapM_pure
  have read := collect_go_takes steps closes h _ [].reverse rest enough
  rw [all] at read
  exact ⟨_, toOption_eq_some_iff.mp read⟩

theorem skipNextItem_takes (each : ∀ b text, one b text → Takes item text (some ())) :
    TakesNext (skipNextItem item) one ']' fun _ => some () := by
  constructor
  · intro before rest blank
    have ended := skipBlanks_mark blank (c := ']') rfl rest
    simp only [skipNextItem, ended]
  · intro before after b text rest blank blank' spelled ends
    have comma := skipBlanks_mark blank (c := ',') rfl (after ++ (text ++ rest))
    have read := toOption_eq_some_iff.mp (each b text spelled after rest blank' ends)
    simp only [skipNextItem, comma, read, bind, Except.bind]
    rfl

theorem skipItems_takes (starts : ∀ b text, one b text → StartsItem text)
    (each : ∀ b text, one b text → Takes item text (some ()))
    (h : SpellsEntries one ']' entries text) (rest : List Char) :
    skipItems item (text ++ rest) = .ok ((), rest) := by
  cases h with
  | @empty before blank =>
    have ended := skipBlanks_mark blank (c := ']') rfl rest
    simp only [List.append_assoc, List.cons_append, List.nil_append, skipItems, ended]
  | @first b entries before text more blank entry later =>
    obtain ⟨c, cs, rfl, notBlank, notEnd⟩ := starts b text entry
    have start : skipBlanks (before ++ (c :: cs ++ (more ++ rest))) = c :: cs ++ (more ++ rest) :=
      skipBlanks_mark blank notBlank (cs ++ (more ++ rest))
    have ends := later.endsNumeral (by decide) rest
    have read := toOption_eq_some_iff.mp (each b _ entry [] (more ++ rest) blanks_nil ends)
    obtain ⟨units, loop⟩ := collect_skips (skipNextItem_takes each) (by decide) later rest
    rw [List.append_assoc, List.append_assoc, skipItems, start]
    split
    · rename_i nothing
      cases nothing
    · rename_i here
      cases here
      exact absurd rfl notEnd
    · rw [List.nil_append] at read
      simp only [read, loop, bind, Except.bind]
      rfl

theorem skipMember_takes (each : ∀ b text, one b text → Takes item text (some ()))
    {entry : String × β} (h : SpellsMember one entry text) :
    Takes (skipMember item) text (some ()) := by
  cases h with
  | @mk name b quotes before after text named blank blank' value =>
    obtain ⟨inner, rfl, name_read⟩ := skipQuoted_formed (formedString_of_spelled named)
    intro front rest blanks ends
    have start := skipBlanks_mark blanks (c := '"') rfl
      (inner ++ (before ++ ':' :: (after ++ (text ++ rest))))
    have colon_read := colon_spelled blank (after ++ (text ++ rest))
    have value_read := each b text value after rest blank' ends
    simp only [List.append_assoc, List.cons_append]
    unfold skipMember
    simp only [start, toOption_bind, name_read, colon_read, toOption_ok, Option.bind_some,
      value_read]

theorem skipNextMember_takes (each : ∀ b text, one b text → Takes item text (some ())) :
    TakesNext (skipNextMember item) (SpellsMember one) '}' fun _ => some () := by
  constructor
  · intro before rest blank
    have ended := skipBlanks_mark blank (c := '}') rfl rest
    simp only [skipNextMember, ended]
  · intro before after entry text rest blank blank' spelled ends
    have comma := skipBlanks_mark blank (c := ',') rfl (after ++ (text ++ rest))
    have read :=
      toOption_eq_some_iff.mp (skipMember_takes each spelled after rest blank' ends)
    simp only [skipNextMember, comma, read, bind, Except.bind]
    rfl

theorem skipMembers_takes (each : ∀ b text, one b text → Takes item text (some ()))
    {entries : List (String × β)} (h : SpellsEntries (SpellsMember one) '}' entries text)
    (rest : List Char) : skipMembers item (text ++ rest) = .ok ((), rest) := by
  cases h with
  | @empty before blank =>
    have ended := skipBlanks_mark blank (c := '}') rfl rest
    simp only [List.append_assoc, List.cons_append, List.nil_append, skipMembers, ended]
  | @first entry entries before text more blank spelled later =>
    obtain ⟨inner, rfl⟩ := spelled.head
    have start : skipBlanks (before ++ ('"' :: inner ++ (more ++ rest))) =
        '"' :: inner ++ (more ++ rest) :=
      skipBlanks_mark blank rfl (inner ++ (more ++ rest))
    have ends := later.endsNumeral (by decide) rest
    have read :=
      toOption_eq_some_iff.mp (skipMember_takes each spelled [] (more ++ rest) blanks_nil ends)
    obtain ⟨units, loop⟩ := collect_skips (skipNextMember_takes each) (by decide) later rest
    rw [List.append_assoc, List.append_assoc, skipMembers, start]
    split
    · rename_i nothing
      cases nothing
    · rename_i here
      cases here
    · rw [List.nil_append] at read
      simp only [read, loop, bind, Except.bind]
      rfl

end Loops

section Values

theorem skipWith_blanks {before : List Char} (blank : Blanks before) (inner : Reader Unit)
    (cs : List Char) : skipWith inner (before ++ cs) = skipWith inner cs := by
  unfold skipWith
  rw [skipBlanks_append blank]

/-- A sign or a digit can only start a number. -/
theorem skipWith_number (inner : Reader Unit) {c : Char} (h : (c == '-' || c.isDigit) = true)
    (cs : List Char) : skipWith inner (c :: cs) =
      (numeral .invalidNumber (c :: cs) >>= fun found => pure ((), found.2)) := by
  rw [skipWith, skipBlanks_of_not_blank (not_isBlank_of_number h)]
  split
  case h_1 nothing => cases nothing
  case h_8 rest _ _ _ _ _ _ here =>
    cases here
    rw [if_pos h]
  all_goals
    rename_i here
    cases here
    cases h

theorem skipWith_scalar (inner : Reader Unit) {text : List Char} (h : FormedScalar text) :
    Takes (skipWith inner) text (some ()) := by
  intro before rest blank ends
  rw [skipWith_blanks blank]
  cases h with
  | null => rfl
  | true => rfl
  | false => rfl
  | number proper spelled =>
    have read := numeral_spelled .invalidNumber proper spelled ends
    obtain ⟨c, cs, rfl, first⟩ := spelled.head proper
    rw [List.cons_append] at read ⊢
    rw [skipWith_number inner first, read]
    rfl
  | string formed =>
    obtain ⟨quoted, rfl, read⟩ := skipQuoted_formed formed
    have passed : skipWith inner ('"' :: quoted ++ rest) = skipQuoted (quoted ++ rest) := rfl
    rw [passed, read rest]
    rfl

theorem startsItem_formed {depth : Nat} {text : List Char} (h : Formed depth text) :
    StartsItem text := by
  have scalar {text : List Char} (h : FormedScalar text) : StartsItem text := by
    cases h with
    | null => exact ⟨'n', _, rfl, rfl, by decide⟩
    | true => exact ⟨'t', _, rfl, rfl, by decide⟩
    | false => exact ⟨'f', _, rfl, rfl, by decide⟩
    | number proper spelled => exact startsItem_numeral proper spelled
    | string formed =>
      obtain ⟨steps, _, rfl⟩ := formed
      exact ⟨'"', _, rfl, rfl, by decide⟩
  cases depth with
  | zero => exact scalar h
  | succ depth =>
    cases h with
    | scalar formed => exact scalar formed
    | array spelled => exact ⟨'[', _, rfl, rfl, by decide⟩
    | object spelled => exact ⟨'{', _, rfl, rfl, by decide⟩

/-- The induction is on the depth of the text; what stands between brackets is shorter than what has
them around it, so the depth that may be passed runs out no sooner than the text. -/
theorem skipWithin_takes {depth : Nat} {text : List Char} (h : Formed depth text) {allowed : Nat}
    (short : text.length < allowed) : Takes (skipWithin allowed) text (some ()) := by
  induction depth generalizing text allowed with
  | zero =>
    obtain ⟨allowed, rfl⟩ := Nat.exists_eq_succ_of_ne_zero (by omega : allowed ≠ 0)
    exact skipWith_scalar (skipWithin allowed) h
  | succ depth ih =>
    obtain ⟨allowed, rfl⟩ := Nat.exists_eq_succ_of_ne_zero (by omega : allowed ≠ 0)
    -- One depth less is allowed inside, and what stands there is shorter by a bracket at least.
    have starts (entry part : List Char) (h : Verbatim (FormedWithin depth allowed) entry part) :
        StartsItem part := startsItem_formed h.2.1
    have each (entry part : List Char) (h : Verbatim (FormedWithin depth allowed) entry part) :
        Takes (skipWithin allowed) part (some ()) := ih h.2.1 h.2.2
    cases h with
    | scalar formed => exact skipWith_scalar (skipWithin allowed) formed
    | @array items inner spelled =>
      intro before rest blank ends
      rw [List.length_cons] at short
      have bounded : SpellsEntries (Verbatim (FormedWithin depth allowed)) ']' items inner :=
        spelled.imp fun entry part shorter ⟨same, formed⟩ => ⟨same, formed, by omega⟩
      rw [skipWithin, skipWith_blanks blank]
      exact toOption_eq_some_iff.mpr (skipItems_takes starts each bounded rest)
    | @object entries inner spelled =>
      intro before rest blank ends
      rw [List.length_cons] at short
      have bounded : SpellsEntries (SpellsMember (Verbatim (FormedWithin depth allowed))) '}'
          entries inner :=
        spelled.imp fun entry part shorter named =>
          named.imp fun entry part shorter ⟨same, formed⟩ => ⟨same, formed, by omega⟩
      rw [skipWithin, skipWith_blanks blank]
      exact toOption_eq_some_iff.mpr (skipMembers_takes each bounded rest)

/-- **Passing over a value.** Every text of the form of a value is passed, however deep its brackets
are nested, with the blanks before it and with nothing after it. -/
theorem skip_takes {depth : Nat} {text : List Char} (h : Formed depth text) :
    Takes skip text (some ()) := by
  intro before rest blank ends
  have enough : text.length < (before ++ (text ++ rest)).length + 1 := by
    simp only [List.length_append]
    omega
  exact skipWithin_takes h enough before rest blank ends

end Values

section Written

theorem length_le_intercalate {part : List Char} {parts : List (List Char)} (h : part ∈ parts) :
    part.length ≤ (List.intercalate [','] parts).length := by
  have among {parts : List (List Char)} (h : part ∈ parts) :
      part.length ≤ (parts.flatMap (',' :: ·)).length := by
    obtain ⟨front, back, rfl⟩ := List.append_of_mem h
    simp only [List.flatMap_append, List.flatMap_cons, List.length_append, List.length_cons]
    omega
  cases parts with
  | nil => cases h
  | cons first parts =>
    rw [intercalate_cons, List.length_append]
    rcases List.mem_cons.mp h with rfl | h
    · exact Nat.le_add_right _ _
    · have := among h
      omega

theorem formedObject_written {depth : Nat} {entries : List (String × List Char)}
    (formed : ∀ entry ∈ entries, Formed depth entry.2) : FormedObject depth entries
      (bracket '{' '}' (entries.map fun entry => writeMember entry.1 entry.2)) := by
  refine ⟨_, spellsEntries_intercalate ?_, rfl⟩
  rw [List.forall₂_map_right_iff, List.forall₂_same]
  intro entry hentry
  exact spellsMember_write ⟨rfl, formed entry hentry⟩

/-- The members of an object, each with its value as it is written. -/
def writtenMembers (members : List (String × Json)) : List (String × List Char) :=
  members.map fun entry => (entry.1, entry.2.write)

theorem write_object (members : List (String × Json)) : (object members).write =
    bracket '{' '}' ((writtenMembers members).map fun entry => writeMember entry.1 entry.2) := by
  rw [write, writeMembers_eq_map, writtenMembers, List.map_map]
  rfl

theorem length_lt_object {members : List (String × Json)} {entry : String × Json}
    (h : entry ∈ members) : entry.2.write.length < (object members).write.length := by
  have whole := length_le_intercalate (List.mem_map_of_mem (f := memberText) h)
  rw [write, writeMembers_eq_map, bracket, List.length_cons, List.length_append]
  simp only [memberText, writeMember, List.length_append, List.length_cons] at whole
  omega

theorem length_lt_array {items : List Json} {v : Json} (h : v ∈ items) :
    v.write.length < (array items).write.length := by
  have whole := length_le_intercalate (List.mem_map_of_mem (f := write) h)
  rw [write, writeItems_eq_map, bracket, List.length_cons, List.length_append]
  omega

/-- Whatever a value is written as has the form of a value. -/
theorem formed_write (v : Json) {depth : Nat} (deep : v.write.length ≤ depth) :
    Formed depth v.write := by
  induction v generalizing depth with
  | null => exact formed_of_scalar .null depth
  | bool b =>
    cases b with
    | true => exact formed_of_scalar .true depth
    | false => exact formed_of_scalar .false depth
  | number n =>
    obtain ⟨numeral, proper, text⟩ := n.exists_write
    rw [write, text]
    exact formed_of_scalar (.number proper numeral.spells_text) depth
  | string s =>
    exact formed_of_scalar (.string (formedString_of_spelled (spellsString_quote s))) depth
  | array items ih =>
    cases depth with
    | zero => cases deep
    | succ depth =>
      have each : List.Forall₂ (Verbatim (Formed depth)) (items.map write) (items.map write) := by
        rw [List.forall₂_map_left_iff, List.forall₂_map_right_iff, List.forall₂_same]
        intro v hv
        have := length_lt_array hv
        exact ⟨rfl, ih v hv (by omega)⟩
      rw [write, writeItems_eq_map, bracket]
      exact .array (spellsEntries_intercalate each)
  | object members ih =>
    cases depth with
    | zero => cases deep
    | succ depth =>
      have formed : ∀ entry ∈ writtenMembers members, Formed depth entry.2 := by
        intro entry hentry
        obtain ⟨member, hmember, rfl⟩ := List.mem_map.mp hentry
        have := length_lt_object hmember
        exact ih member hmember (by omega)
      obtain ⟨inner, spelled, text⟩ := formedObject_written formed
      rw [write_object, text]
      exact .object spelled

end Written

end Sieve.Json
