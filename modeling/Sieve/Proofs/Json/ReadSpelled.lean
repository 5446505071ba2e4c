import Sieve.Proofs.Json.Grammar
import Sieve.Proofs.Json.ReadWritten

/-!
The reader on spelled values. However a value is spelled, the reader takes its text with the value
and stops where the text ends. The loops over items and over members are the same loop, which ends
with a list if every entry comes to something and fails as soon as one does not. What is written
compactly, with commas and nothing else between, is one way to spell it.
-/

namespace Sieve.Json

open Reader

theorem isBlank_of_mem {before : List Char} (blank : Blanks before) :
    ∀ c ∈ before, isBlank c = true := by
  intro c hc
  have listed := blank c hc
  simp only [List.mem_cons, List.not_mem_nil, or_false] at listed
  rcases listed with rfl | rfl | rfl | rfl <;> rfl

theorem skipBlanks_append {before : List Char} (blank : Blanks before) (cs : List Char) :
    skipBlanks (before ++ cs) = skipBlanks cs := by
  unfold skipBlanks
  exact List.dropWhile_append_of_pos (isBlank_of_mem blank)

/-- Blanks before a mark are passed with nothing else. -/
theorem skipBlanks_mark {before : List Char} (blank : Blanks before) {c : Char}
    (mark : isBlank c = false) (cs : List Char) : skipBlanks (before ++ c :: cs) = c :: cs := by
  rw [skipBlanks_append blank, skipBlanks_of_not_blank mark]

theorem scalar_blanks {before : List Char} (blank : Blanks before) (cs : List Char) :
    scalar (before ++ cs) = scalar cs := by
  unfold scalar
  rw [skipBlanks_append blank]

theorem value_blanks {before : List Char} (blank : Blanks before) (budget : Nat)
    (cs : List Char) : value budget (before ++ cs) = value budget cs := by
  cases budget <;> simp only [value, valueWith, scalar_blanks blank]

/-- What stands between blanks and a mark ends a numeral. -/
theorem endsNumeral_blanks {before : List Char} (blank : Blanks before) {c : Char}
    (mark : c ∈ [',', ']', '}']) (rest : List Char) : EndsNumeral (before ++ c :: rest) := by
  cases before with
  | nil => exact endsNumeral_cons mark rest
  | cons b bs =>
    intro d hd
    cases hd
    have listed := blank b List.mem_cons_self
    simp only [List.mem_cons, List.not_mem_nil, or_false] at listed
    rcases listed with rfl | rfl | rfl | rfl <;> decide

/-- The reader takes this text with this result, none being a failure, whatever blanks stand before
it and whatever follows. -/
def Takes {α : Type} (reader : Reader α) (text : List Char) (result : Option α) : Prop :=
  ∀ before rest, Blanks before → EndsNumeral rest →
    (reader (before ++ (text ++ rest))).toOption = result.map (·, rest)

section Sequence

variable {α β : Type} {one : β → List Char → Prop} {close : Char} {entries : List β}
  {text : List Char}

theorem SpellsMore.endsNumeral (closes : close ∈ [']', '}'])
    (h : SpellsMore one close entries text) (rest : List Char) : EndsNumeral (text ++ rest) := by
  cases h with
  | close blank =>
    rw [List.append_assoc]
    exact endsNumeral_blanks blank (List.mem_cons_of_mem _ closes) rest
  | comma blank blank' entry later =>
    rw [List.append_assoc]
    exact endsNumeral_blanks blank (by simp) _

theorem SpellsMore.length_le (h : SpellsMore one close entries text) :
    entries.length ≤ text.length := by
  induction h with
  | close blank => exact Nat.zero_le _
  | comma blank blank' entry later ih =>
    simp only [List.length_cons, List.length_append]
    omega

/-- The step of a loop over entries: it takes the closing bracket, or a comma and one entry. -/
structure TakesNext (step : Reader (Option α)) (one : β → List Char → Prop) (close : Char)
    (result : β → Option α) : Prop where
  last : ∀ before rest, Blanks before → step (before ++ close :: rest) = .ok (none, rest)
  next : ∀ before after b text rest, Blanks before → Blanks after → one b text →
    EndsNumeral rest → (step (before ++ ',' :: (after ++ (text ++ rest)))).toOption =
      (result b).map fun a => (some a, rest)

variable {step : Reader (Option α)} {result : β → Option α}

/-- The induction is on what follows an entry; every round takes one comma. -/
theorem collect_go_takes (steps : TakesNext step one close result) (closes : close ∈ [']', '}'])
    (h : SpellsMore one close entries text) (rounds : Nat) (held : List α) (rest : List Char)
    (enough : entries.length < rounds) :
    (collect.go step rounds held (text ++ rest)).toOption =
      (entries.mapM result).map fun as => (held.reverse ++ as, rest) := by
  induction h generalizing rounds held with
  | @close before blank =>
    obtain ⟨rounds, rfl⟩ := Nat.exists_eq_succ_of_ne_zero (by omega : rounds ≠ 0)
    have ended := steps.last before rest blank
    simp only [List.append_assoc, List.cons_append, List.nil_append]
    simp [collect.go, ended, toOption_ok]
  | @comma b entries before after text more blank blank' entry later ih =>
    obtain ⟨rounds, rfl⟩ := Nat.exists_eq_succ_of_ne_zero (by omega : rounds ≠ 0)
    have head := steps.next before after b text _ blank blank' entry (later.endsNumeral closes rest)
    simp only [List.append_assoc, List.cons_append, List.mapM_cons]
    unfold collect.go
    cases found : result b with
    | none =>
      rw [found] at head
      obtain ⟨stop, failed⟩ := toOption_eq_none_iff.mp head
      simp only [failed]
      rfl
    | some a =>
      rw [found] at head
      have read := toOption_eq_some_iff.mp head
      have tail := ih rounds (a :: held) (by simp only [List.length_cons] at enough; omega)
      simp only [read, tail]
      cases entries.mapM result <;> simp

/-- The whole of the loop, after a first entry. -/
theorem collect_takes (steps : TakesNext step one close result) (closes : close ∈ [']', '}'])
    (h : SpellsMore one close entries text) (a : α) (rest : List Char) :
    (collect step [a] (text ++ rest)).toOption =
      (entries.mapM result).map fun as => (a :: as, rest) := by
  have enough : entries.length < (text ++ rest).length + 1 := by
    have := h.length_le
    rw [List.length_append]
    omega
  exact collect_go_takes steps closes h _ [a].reverse rest enough

end Sequence

theorem blanks_nil : Blanks [] := by
  intro c hc
  cases hc

section Written

variable {α : Type} {one : α → List Char → Prop} {close : Char}

theorem spellsMore_commas {entries : List α} {texts : List (List Char)}
    (h : List.Forall₂ one entries texts) :
    SpellsMore one close entries (texts.flatMap (',' :: ·) ++ [close]) := by
  induction h with
  | nil => exact .close blanks_nil
  | @cons a text entries texts first _ ih =>
    have more : SpellsMore one close (a :: entries)
        ([] ++ ',' :: ([] ++ (text ++ (texts.flatMap (',' :: ·) ++ [close])))) :=
      .comma blanks_nil blanks_nil first ih
    simpa using more

/-- Texts with a comma between them and nothing else spell their entries. -/
theorem spellsEntries_intercalate {entries : List α} {texts : List (List Char)}
    (h : List.Forall₂ one entries texts) :
    SpellsEntries one close entries (List.intercalate [','] texts ++ [close]) := by
  cases h with
  | nil => exact .empty blanks_nil
  | @cons a text entries texts first later =>
    have all : SpellsEntries one close (a :: entries)
        ([] ++ (text ++ (texts.flatMap (',' :: ·) ++ [close]))) :=
      .first blanks_nil first (spellsMore_commas later)
    simpa [intercalate_cons] using all

theorem spellsMember_write {name : String} {a : α} {text : List Char} (h : one a text) :
    SpellsMember one (name, a) (writeMember name text) :=
  .mk (spellsString_quote name) blanks_nil blanks_nil h

end Written

section Items

variable {α β : Type} {item : Reader α} {one : β → List Char → Prop} {result : β → Option α}

/-- The text starts neither with a blank nor with the end of a list. -/
def StartsItem (text : List Char) : Prop := ∃ c cs, text = c :: cs ∧ isBlank c = false ∧ c ≠ ']'

theorem nextItem_takes (starts : ∀ b text, one b text → StartsItem text)
    (each : ∀ b text, one b text → Takes item text (result b)) :
    TakesNext (nextItem item) one ']' result := by
  constructor
  · intro before rest blank
    have ended := skipBlanks_mark blank (c := ']') rfl rest
    simp only [nextItem, ended]
  · intro before after b text rest blank blank' spelled ends
    obtain ⟨c, cs, rfl, notBlank, notEnd⟩ := starts b text spelled
    have comma := skipBlanks_mark blank (c := ',') rfl (after ++ (c :: cs ++ rest))
    have start : skipBlanks (after ++ (c :: cs ++ rest)) = c :: cs ++ rest :=
      skipBlanks_mark blank' notBlank (cs ++ rest)
    have read := each b _ spelled [] rest blanks_nil ends
    unfold nextItem
    rw [comma]
    simp only [start]
    split
    · rename_i nothing
      cases nothing
    · rename_i here
      cases here
      exact absurd rfl notEnd
    · rw [toOption_bind]
      rw [List.nil_append] at read
      rw [read]
      cases result b <;> rfl

theorem items_takes (starts : ∀ b text, one b text → StartsItem text)
    (each : ∀ b text, one b text → Takes item text (result b)) {entries : List β}
    {text : List Char} (h : SpellsEntries one ']' entries text) (rest : List Char) :
    (items item (text ++ rest)).toOption = (entries.mapM result).map (·, rest) := by
  cases h with
  | @empty before blank =>
    have ended := skipBlanks_mark blank (c := ']') rfl rest
    simp only [List.append_assoc, List.cons_append, List.nil_append, items, ended]
    rfl
  | @first b entries before text more blank entry later =>
    obtain ⟨c, cs, rfl, notBlank, notEnd⟩ := starts b text entry
    have start : skipBlanks (before ++ (c :: cs ++ (more ++ rest))) = c :: cs ++ (more ++ rest) :=
      skipBlanks_mark blank notBlank (cs ++ (more ++ rest))
    have read := each b _ entry [] (more ++ rest) blanks_nil
      (later.endsNumeral (by decide) rest)
    have loop := collect_takes (nextItem_takes starts each) (by decide) later
    simp only [List.append_assoc, List.mapM_cons]
    unfold items
    rw [start]
    split
    · rename_i nothing
      cases nothing
    · rename_i here
      cases here
      exact absurd rfl notEnd
    · rw [toOption_bind]
      rw [List.nil_append] at read
      rw [read]
      cases result b with
      | none => rfl
      | some a =>
        have others := loop a rest
        simp only [Option.map_some, Option.bind_some, others]
        cases entries.mapM result <;> rfl

end Items

section Members

variable {α β : Type} {item : Reader α} {one : β → List Char → Prop} {result : β → Option α}

theorem colon_spelled {before : List Char} (blank : Blanks before) (rest : List Char) :
    colon (before ++ ':' :: rest) = .ok ((), rest) := by
  have mark := skipBlanks_mark blank (c := ':') rfl rest
  simp only [colon, mark]

/-- A member as the reader of members meets it: after the opening quote of its name. -/
theorem member_takes (each : ∀ b text, one b text → Takes item text (result b))
    {entry : String × β} {text : List Char} (h : SpellsMember one entry text) :
    ∃ inner, text = '"' :: inner ∧ ∀ rest, EndsNumeral rest →
      (member item (inner ++ rest)).toOption =
        (result entry.2).map fun a => ((entry.1, a), rest) := by
  cases h with
  | @mk name b quotes before after text named blank blank' value =>
    obtain ⟨inner, spelled, rfl⟩ := named
    refine ⟨inner ++ '"' :: (before ++ ':' :: (after ++ text)), by simp, ?_⟩
    intro rest ends
    have name_read := quoted_spelled spelled (before ++ ':' :: (after ++ (text ++ rest)))
    have colon_read := colon_spelled blank (after ++ (text ++ rest))
    have value_read := each b text value after rest blank' ends
    simp only [List.append_assoc, List.cons_append]
    unfold member
    simp only [toOption_bind, name_read, colon_read, toOption_ok, Option.bind_some, value_read]
    cases result b <;> rfl

theorem firstName_close {before : List Char} (blank : Blanks before) (rest : List Char) :
    firstName (before ++ '}' :: rest) = .ok (none, rest) := by
  have ended := skipBlanks_mark blank (c := '}') rfl rest
  simp only [firstName, ended]

theorem firstName_quote {before : List Char} (blank : Blanks before) (rest : List Char) :
    firstName (before ++ '"' :: rest) = .ok (some (), rest) := by
  have opens := skipBlanks_mark blank (c := '"') rfl rest
  simp only [firstName, opens]

theorem nextName_close {before : List Char} (blank : Blanks before) (rest : List Char) :
    nextName (before ++ '}' :: rest) = .ok (none, rest) := by
  have ended := skipBlanks_mark blank (c := '}') rfl rest
  simp only [nextName, ended]

theorem nextName_comma {before after : List Char} (blank : Blanks before) (blank' : Blanks after)
    (rest : List Char) :
    nextName (before ++ ',' :: (after ++ '"' :: rest)) = .ok (some (), rest) := by
  have comma := skipBlanks_mark blank (c := ',') rfl (after ++ '"' :: rest)
  have opens := skipBlanks_mark blank' (c := '"') rfl rest
  simp only [nextName, comma, opens]

theorem nextMember_takes (each : ∀ b text, one b text → Takes item text (result b)) :
    TakesNext (nextMember item) (SpellsMember one) '}' fun entry =>
      (result entry.2).map (entry.1, ·) := by
  constructor
  · intro before rest blank
    simp only [nextMember, nextName_close blank]
    rfl
  · intro before after entry text rest blank blank' spelled ends
    obtain ⟨inner, rfl, read⟩ := member_takes each spelled
    have opens : nextName (before ++ ',' :: (after ++ ('"' :: inner ++ rest))) =
        .ok (some (), inner ++ rest) := nextName_comma blank blank' (inner ++ rest)
    have read := read rest ends
    unfold nextMember
    simp only [toOption_bind, opens, read, toOption_ok, Option.bind_some]
    cases result entry.2 <;> rfl

theorem members_takes (each : ∀ b text, one b text → Takes item text (result b))
    {entries : List (String × β)} {text : List Char}
    (h : SpellsEntries (SpellsMember one) '}' entries text) (rest : List Char) :
    (members item (text ++ rest)).toOption =
      (entries.mapM fun entry => (result entry.2).map (entry.1, ·)).map (·, rest) := by
  cases h with
  | @empty before blank =>
    have ended := firstName_close blank rest
    simp only [List.append_assoc, List.cons_append, List.nil_append, members, ended]
    rfl
  | @first entry entries before text more blank spelled later =>
    obtain ⟨inner, rfl, read⟩ := member_takes each spelled
    have start := firstName_quote blank (inner ++ (more ++ rest))
    have read := read (more ++ rest) (later.endsNumeral (by decide) rest)
    have loop := collect_takes (nextMember_takes each) (by decide) later
    simp only [List.append_assoc, List.cons_append, List.mapM_cons, members, start, toOption_bind]
    simp only [toOption_ok, Option.bind_some, toOption_bind, read]
    cases result entry.2 with
    | none => rfl
    | some a =>
      have others := loop (entry.1, a) rest
      simp only [Option.map_some, Option.bind_some, others]
      cases entries.mapM fun entry => (result entry.2).map (entry.1, ·) <;> rfl

end Members

theorem scalar_brace {before : List Char} (blank : Blanks before) (cs : List Char) :
    scalar (before ++ '{' :: cs) = .ok (.map, '{' :: cs) := by
  rw [scalar_blanks blank]
  rfl

theorem number_spelled {n : Number} {text rest : List Char} (h : SpellsNumber n text)
    (ends : EndsNumeral rest) : Reader.number (text ++ rest) = .ok (n, rest) := by
  obtain ⟨numeral, proper, spelled, outcome⟩ := h
  have read := numeral_spelled .endOfValue proper spelled ends
  unfold Reader.number
  simp only [read, bind, Except.bind, outcome]
  rfl

theorem scalar_spelled_number {n : Number} {text rest : List Char} (h : SpellsNumber n text)
    (ends : EndsNumeral rest) : scalar (text ++ rest) = .ok (.number n, rest) := by
  have read := number_spelled h ends
  obtain ⟨numeral, proper, spelled, _⟩ := h
  obtain ⟨c, cs, rfl, first⟩ := spelled.head proper
  rw [List.cons_append] at read ⊢
  rw [scalar_number first, read]
  rfl

/-- A value without brackets needs none to be allowed. -/
theorem scalar_takes {v : Json} {text : List Char} (h : SpellsScalar v text) (budget : Nat) :
    Takes (value budget) text (some v) := by
  intro before rest blank ends
  rw [value_blanks blank]
  cases h with
  | null => cases budget <;> rfl
  | true => cases budget <;> rfl
  | false => cases budget <;> rfl
  | number spelled =>
    have read := number_spelled spelled ends
    obtain ⟨numeral, proper, spelled, _⟩ := spelled
    obtain ⟨c, cs, rfl, first⟩ := spelled.head proper
    rw [List.cons_append] at read ⊢
    rw [value_number budget first, read]
    rfl
  | string spelled =>
    have read := value_string budget spelled rest
    rw [read]
    rfl

theorem startsItem_numeral {numeral : Numeral} {text : List Char} (proper : numeral.Proper)
    (spelled : numeral.Spells text) : StartsItem text := by
  obtain ⟨c, cs, rfl, first⟩ := spelled.head proper
  refine ⟨c, cs, rfl, not_isBlank_of_number first, ?_⟩
  rintro rfl
  cases first

theorem startsItem_scalar {v : Json} {text : List Char} (h : SpellsScalar v text) :
    StartsItem text := by
  cases h with
  | null => exact ⟨'n', _, rfl, rfl, by decide⟩
  | true => exact ⟨'t', _, rfl, rfl, by decide⟩
  | false => exact ⟨'f', _, rfl, rfl, by decide⟩
  | number spelled =>
    obtain ⟨numeral, proper, spelled, _⟩ := spelled
    exact startsItem_numeral proper spelled
  | string spelled =>
    obtain ⟨inner, _, rfl⟩ := spelled
    exact ⟨'"', _, rfl, rfl, by decide⟩

theorem startsItem_spelled {depth : Nat} {v : Json} {text : List Char} (h : Spells depth v text) :
    StartsItem text := by
  rcases spells_cases h with spelled | ⟨_, inner, _, rfl⟩ | ⟨_, inner, _, rfl⟩
  · exact startsItem_scalar spelled
  · exact ⟨'[', inner, rfl, rfl, by decide⟩
  · exact ⟨'{', inner, rfl, rfl, by decide⟩

theorem value_bracket (budget : Nat) (cs : List Char) :
    value (budget + 1) ('[' :: cs) =
      (items (value budget) cs >>= fun found => pure (.array found.1, found.2)) := rfl

theorem value_brace (budget : Nat) (cs : List Char) :
    value (budget + 1) ('{' :: cs) =
      (members (value budget) cs >>= fun found => pure (ofMembers found.1, found.2)) := rfl

/-- **Reading what is spelled.** The reader takes every text of a value whose brackets are within
the budget, and comes to that value. -/
theorem value_takes {depth : Nat} {v : Json} {text : List Char} (h : Spells depth v text)
    {budget : Nat} (within : depth ≤ budget) : Takes (value budget) text (some v) := by
  induction depth generalizing v text budget with
  | zero => exact scalar_takes h budget
  | succ depth ih =>
    obtain ⟨budget, rfl⟩ := Nat.exists_eq_succ_of_ne_zero (by omega : budget ≠ 0)
    have each (w : Json) (text : List Char) (spelled : Spells depth w text) :
        Takes (value budget) text (some w) := ih spelled (by omega)
    cases h with
    | scalar spelled => exact scalar_takes spelled (budget + 1)
    | @array entries inner spelled =>
      intro before rest blank ends
      have read := items_takes (fun _ _ => startsItem_spelled) each spelled rest
      have all : entries.mapM some = some (entries.map id) := List.mapM_pure
      rw [value_blanks blank, List.cons_append, value_bracket, toOption_bind, read, all,
        List.map_id]
      rfl
    | @object entries inner spelled =>
      intro before rest blank ends
      have read := members_takes each spelled rest
      have all : (entries.mapM fun entry => (some entry.2).map (entry.1, ·)) =
          some (entries.map id) := List.mapM_pure
      rw [value_blanks blank, List.cons_append, value_brace, toOption_bind, read, all,
        List.map_id]
      rfl

/-- A reader of a whole text passes the blanks after what it takes. -/
theorem run_spelled {α : Type} {reader : Reader α} {text : String} {inner : List Char}
    {a? : Option α} (takes : Takes reader inner a?) {before after : List Char}
    (blank : Blanks before) (blank' : Blanks after)
    (whole : text.toList = before ++ (inner ++ after)) : (reader.run text).toOption = a? := by
  have ends : EndsNumeral after := by
    have marked := endsNumeral_blanks blank' (c := ',') (by simp) []
    intro c here
    apply marked c
    cases after with
    | nil => cases here
    | cons b bs => exact here
  have read := takes before after blank ends
  have ended : endOfText after = .ok () := by
    have none_left := skipBlanks_append blank' []
    rw [List.append_nil] at none_left
    unfold endOfText
    rw [none_left]
    rfl
  unfold Reader.run
  rw [whole]
  cases a? with
  | none =>
    obtain ⟨stop, failed⟩ := toOption_eq_none_iff.mp read
    simp only [failed]
    rfl
  | some a =>
    have found := toOption_eq_some_iff.mp read
    simp only [found, ended]
    rfl

/-- Every JSON text that is not nested too deep is read as the value that it spells. -/
theorem ofText_spelled {depth : Nat} {v : Json} {text : String}
    (h : SpellsWhole (Spells depth) v text) (within : depth ≤ bracketBudget) :
    ofText text = .ok v := by
  obtain ⟨before, inner, after, blank, spelled, blank', whole⟩ := h
  exact toOption_eq_some_iff.mp (run_spelled (value_takes spelled within) blank blank' whole)

end Sieve.Json
