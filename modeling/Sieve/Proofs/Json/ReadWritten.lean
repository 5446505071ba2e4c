import Sieve.Proofs.Json.Reread

/-!
The reader on written values. It takes exactly what was written, whatever comes after, and comes to
what `reread` says: brackets are matched by one induction over values, and the loops over items and
over members are the same loop over what stands between commas.
-/

namespace Sieve.Json

open Reader

/-- A written number starts with its sign or a digit. -/
theorem Number.write_head (n : Number) :
    ∃ c cs, n.write = c :: cs ∧ (c == '-' || c.isDigit) = true := by
  obtain ⟨m, proper, text⟩ := n.exists_write
  have spelled : m.Spells n.write := text ▸ m.spells_text
  exact spelled.head proper

theorem not_isBlank_of_number {c : Char} (h : (c == '-' || c.isDigit) = true) :
    isBlank c = false := by
  cases blank : isBlank c with
  | false => rfl
  | true =>
    simp only [isBlank, Bool.or_eq_true, beq_iff_eq] at blank
    rcases blank with ((rfl | rfl) | rfl) | rfl <;> cases h

/-- A written value does not start with a blank or with the end of a list. -/
theorem write_head (v : Json) :
    ∃ c cs, v.write = c :: cs ∧ isBlank c = false ∧ c ≠ ']' := by
  cases v with
  | null => exact ⟨'n', _, rfl, rfl, by decide⟩
  | bool b => cases b <;> exact ⟨_, _, rfl, rfl, by decide⟩
  | string s => exact ⟨'"', _, rfl, rfl, by decide⟩
  | array items => exact ⟨'[', _, rfl, rfl, by decide⟩
  | object members => exact ⟨'{', _, rfl, rfl, by decide⟩
  | number n =>
    obtain ⟨c, cs, text, first⟩ := n.write_head
    refine ⟨c, cs, text, not_isBlank_of_number first, ?_⟩
    rintro rfl
    cases first

theorem skipBlanks_of_not_blank {c : Char} (h : isBlank c = false) (cs : List Char) :
    skipBlanks (c :: cs) = c :: cs := by
  rw [skipBlanks, List.dropWhile_cons, h]
  rfl

theorem skipBlanks_write (v : Json) (rest : List Char) :
    skipBlanks (v.write ++ rest) = v.write ++ rest := by
  obtain ⟨c, cs, text, first, _⟩ := v.write_head
  rw [text, List.cons_append, skipBlanks_of_not_blank first]

/-- A sign or a digit can only start a number. -/
theorem scalar_number {c : Char} (h : (c == '-' || c.isDigit) = true) (cs : List Char) :
    scalar (c :: cs) = (do let (n, rest) ← Reader.number (c :: cs); pure (.number n, rest)) := by
  rw [scalar, skipBlanks_of_not_blank (not_isBlank_of_number h)]
  split
  case h_1 nothing => cases nothing
  case h_8 rest _ _ _ _ _ _ here =>
    cases here
    rw [if_pos h]
  all_goals
    rename_i here
    cases here
    cases h

theorem intercalate_cons (x : List Char) (xs : List (List Char)) :
    List.intercalate [','] (x :: xs) = x ++ xs.flatMap (',' :: ·) := by
  induction xs generalizing x with
  | nil => simp
  | cons y ys ih => rw [List.intercalate_cons_cons, ih, List.flatMap_cons]; simp

theorem endsNumeral_sequence {close : Char} (closes : close ∈ [']', '}'])
    (texts : List (List Char)) (rest : List Char) :
    EndsNumeral (texts.flatMap (',' :: ·) ++ close :: rest) := by
  cases texts with
  | nil => exact endsNumeral_cons (List.mem_cons_of_mem _ closes) rest
  | cons t texts => exact endsNumeral_cons (by simp) _

section Sequence

variable {α β : Type} {step : Reader (Option α)} {text : β → List Char}
  {result : β → Except Cause α} {close : Char} {entries : List β}

/-- The loop over what stands between commas, up to the bracket that closes it. The first entry that
does not read back stops it, with the same cause as in the list of results. -/
theorem collect_go_reads (closes : close ∈ [']', '}'])
    (last : ∀ rest, step (close :: rest) = .ok (none, rest))
    (each : ∀ b ∈ entries, ∀ rest, EndsNumeral rest →
      Reads (step (',' :: (text b ++ rest))) ((result b).map some) rest)
    (rounds : Nat) (held : List α) (rest : List Char) (enough : entries.length < rounds) :
    Reads (collect.go step rounds held ((entries.map text).flatMap (',' :: ·) ++ close :: rest))
      ((entries.mapM result).map (held.reverse ++ ·)) rest := by
  induction entries generalizing rounds held with
  | nil =>
    obtain ⟨rounds, rfl⟩ := Nat.exists_eq_succ_of_ne_zero (by omega : rounds ≠ 0)
    change collect.go step (rounds + 1) held (close :: rest) = .ok (held.reverse ++ [], rest)
    rw [collect.go, last, List.append_nil]
  | cons b entries ih =>
    obtain ⟨rounds, rfl⟩ := Nat.exists_eq_succ_of_ne_zero (by omega : rounds ≠ 0)
    rw [List.length_cons] at enough
    have head := each b List.mem_cons_self _ (endsNumeral_sequence closes (entries.map text) rest)
    have tail := ih (fun b' hb' => each b' (List.mem_cons_of_mem b hb')) rounds
    rw [List.map_cons, List.flatMap_cons, List.append_assoc, List.cons_append, collect.go,
      List.mapM_cons]
    cases h : result b with
    | error cause =>
      rw [h] at head
      obtain ⟨unread, read⟩ := head
      exact ⟨unread, by rw [read]⟩
    | ok a =>
      rw [h] at head
      change step _ = .ok (some a, _) at head
      rw [head]
      have := tail (a :: held) (by omega)
      simp only [List.reverse_cons, List.append_assoc] at this
      cases results : entries.mapM result with
      | error cause => rw [results] at this; exact this
      | ok as => rw [results] at this; exact this

/-- Every entry takes at least the character of its comma, so the rounds are enough. -/
theorem length_le_flatMap_comma (texts : List (List Char)) :
    texts.length ≤ (texts.flatMap (',' :: ·)).length := by
  induction texts with
  | nil => exact Nat.le_refl _
  | cons t texts ih =>
    rw [List.flatMap_cons, List.length_append, List.length_cons, List.length_cons]
    omega

/-- A first entry that was read some other way, and the loop over the others. -/
theorem sequence_reads (closes : close ∈ [']', '}'])
    (last : ∀ rest, step (close :: rest) = .ok (none, rest))
    (each : ∀ b ∈ entries, ∀ rest, EndsNumeral rest →
      Reads (step (',' :: (text b ++ rest))) ((result b).map some) rest)
    {first : Except Stop (α × List Char)} {b : β} {rest : List Char}
    (head : Reads first (result b) ((entries.map text).flatMap (',' :: ·) ++ close :: rest)) :
    Reads (do let (a, more) ← first; collect step [a] more) ((b :: entries).mapM result) rest := by
  rw [List.mapM_cons]
  cases h : result b with
  | error cause =>
    rw [h] at head
    obtain ⟨unread, read⟩ := head
    exact ⟨unread, by rw [read]; rfl⟩
  | ok a =>
    rw [h] at head
    change first = .ok (a, _) at head
    rw [head]
    have enough : entries.length <
        ((entries.map text).flatMap (',' :: ·) ++ close :: rest).length + 1 := by
      have := length_le_flatMap_comma (entries.map text)
      rw [List.length_map] at this
      rw [List.length_append]
      omega
    have loop := collect_go_reads closes last each _ [a].reverse rest enough
    cases results : entries.mapM result with
    | error cause => rw [results] at loop; exact loop
    | ok as => rw [results] at loop; exact loop

end Sequence

theorem writeItems_eq_map (items : List Json) : writeItems items = items.map write := by
  induction items with
  | nil => rfl
  | cons v rest ih => rw [writeItems, List.map_cons, ih]

/-- An item as a reader of items meets it. -/
theorem nextItem_comma (item : Reader Json) (v : Json) (rest : List Char) :
    nextItem item (',' :: (v.write ++ rest)) =
      (do let (a, rest) ← item (v.write ++ rest); pure (some a, rest)) := by
  obtain ⟨c, cs, text, first, not_end⟩ := v.write_head
  have comma : skipBlanks (',' :: (v.write ++ rest)) = ',' :: (v.write ++ rest) :=
    skipBlanks_of_not_blank (by decide) _
  rw [nextItem, comma]
  simp only [skipBlanks_write]
  rw [text, List.cons_append]
  split
  · rename_i nothing
    cases nothing
  · rename_i here
    cases here
    exact absurd rfl not_end
  · rfl

/-- The value reads back under this budget, whatever follows. -/
def ReadsBack (budget : Nat) (v : Json) : Prop :=
  ∀ rest, EndsNumeral rest → Reads (Reader.value budget (v.write ++ rest)) (reread budget v) rest

theorem items_reads {budget : Nat} {items : List Json} (each : ∀ v ∈ items, ReadsBack budget v)
    (rest : List Char) :
    Reads (Reader.items (value budget)
      (List.intercalate [','] (writeItems items) ++ ']' :: rest))
      (rereadItems budget items) rest := by
  rw [writeItems_eq_map, rereadItems_eq_mapM]
  cases items with
  | nil => rfl
  | cons v items =>
    have closes : ']' ∈ [']', '}'] := by decide
    have head := each v List.mem_cons_self _ (endsNumeral_sequence closes (items.map write) rest)
    have last (rest : List Char) : nextItem (value budget) (']' :: rest) = .ok (none, rest) := rfl
    have sequence := sequence_reads closes last
      (fun w hw rest ends => by
        rw [nextItem_comma]
        exact (each w (List.mem_cons_of_mem v hw) rest ends).map some) head
    obtain ⟨c, cs, text, _, not_end⟩ := v.write_head
    rw [List.map_cons, intercalate_cons, List.append_assoc, Reader.items, skipBlanks_write]
    rw [text, List.cons_append] at sequence ⊢
    split
    · rename_i nothing
      cases nothing
    · rename_i here
      cases here
      exact absurd rfl not_end
    · exact sequence

/-- A member as text, its name in quotes. -/
def memberText (entry : String × Json) : List Char := writeMember entry.1 entry.2.write

theorem writeMembers_eq_map (members : List (String × Json)) :
    writeMembers members = members.map memberText := by
  induction members with
  | nil => rfl
  | cons entry rest ih => rw [writeMembers, List.map_cons, ih]; rfl

/-- A member after the opening quote of its name. -/
theorem member_reads {budget : Nat} {entry : String × Json} (h : ReadsBack budget entry.2)
    {rest : List Char} (ends : EndsNumeral rest) :
    Reads (member (value budget) (entry.1.toList.flatMap escape ++
      '"' :: ':' :: (entry.2.write ++ rest))) (rereadMember budget entry) rest := by
  have named : member (value budget) (entry.1.toList.flatMap escape ++
      '"' :: ':' :: (entry.2.write ++ rest)) =
      (do let (a, rest) ← value budget (entry.2.write ++ rest); pure ((entry.1, a), rest)) := by
    rw [member, quoted_escape]
    rfl
  rw [named]
  exact (h rest ends).map (entry.1, ·)

theorem memberText_append (entry : String × Json) (rest : List Char) :
    memberText entry ++ rest =
      '"' :: (entry.1.toList.flatMap escape ++ '"' :: ':' :: (entry.2.write ++ rest)) := by
  simp [memberText, writeMember, quote]

theorem members_reads {budget : Nat} {entries : List (String × Json)}
    (each : ∀ entry ∈ entries, ReadsBack budget entry.2) (rest : List Char) :
    Reads (Reader.members (value budget)
      (List.intercalate [','] (writeMembers entries) ++ '}' :: rest))
      (rereadMembers budget entries) rest := by
  rw [writeMembers_eq_map, rereadMembers_eq_mapM]
  cases entries with
  | nil => rfl
  | cons entry entries =>
    have closes : '}' ∈ [']', '}'] := by decide
    have head := member_reads (each entry List.mem_cons_self)
      (endsNumeral_sequence closes (entries.map memberText) rest)
    have last (rest : List Char) : nextMember (value budget) ('}' :: rest) = .ok (none, rest) := rfl
    have sequence := sequence_reads closes last
      (fun other hother rest ends => by
        rw [memberText_append]
        exact (member_reads (each other (List.mem_cons_of_mem entry hother)) ends).map some) head
    rw [List.map_cons, intercalate_cons, List.append_assoc, memberText_append]
    exact sequence

/-- A number is read alike under every budget. -/
theorem value_number (budget : Nat) {c : Char} (h : (c == '-' || c.isDigit) = true)
    (cs : List Char) :
    value budget (c :: cs) =
      (do let (n, rest) ← Reader.number (c :: cs); pure (.number n, rest)) := by
  cases budget <;>
    rw [value, valueWith, scalar_number h] <;>
    cases Reader.number (c :: cs) <;> rfl

/-- However a string is spelled, it is read alike under every budget. -/
theorem value_string (budget : Nat) {s : String} {text : List Char} (h : SpellsString s text)
    (rest : List Char) : value budget (text ++ rest) = .ok (.string s, rest) := by
  obtain ⟨inner, spelled, rfl⟩ := h
  have read : scalar ('"' :: (inner ++ '"' :: rest)) =
      (quoted (inner ++ '"' :: rest) >>= fun found => pure (.string found.1, found.2)) :=
    rfl
  rw [quoted_spelled spelled] at read
  have text : '"' :: (inner ++ ['"']) ++ rest = '"' :: (inner ++ '"' :: rest) := by simp
  rw [text]
  cases budget <;> rw [value, valueWith, read] <;> rfl

/-- **Reading what was written.** The reader takes the text of a value and no more, and what it
comes to depends on the value and on the budget alone. -/
theorem value_write (v : Json) (budget : Nat) : ReadsBack budget v := by
  induction v generalizing budget with
  | null => intro rest _; cases budget <;> rfl
  | bool b => intro rest _; cases b <;> cases budget <;> rfl
  | string s => intro rest _; exact value_string budget (spellsString_quote s) rest
  | number n =>
    intro rest ends
    have read := (number_write n ends).map Json.number
    obtain ⟨c, cs, text, first⟩ := n.write_head
    rw [text, List.cons_append, ← value_number budget first, ← List.cons_append, ← text] at read
    exact read
  | array items ih =>
    intro rest _
    rw [write, bracket, List.cons_append, List.append_assoc]
    cases budget with
    | zero => exact ⟨_, rfl⟩
    | succ budget => exact (items_reads (fun v hv => ih v hv budget) rest).map Json.array
  | object members ih =>
    intro rest _
    rw [write, bracket, List.cons_append, List.append_assoc]
    cases budget with
    | zero => exact ⟨_, rfl⟩
    | succ budget => exact (members_reads (fun entry h => ih entry h budget) rest).map ofMembers

/-- A whole text that was written reads as `reread` says, or fails with that cause somewhere in it.
-/
theorem ofText_render (v : Json) :
    match reread bracketBudget v with
    | .ok w => ofText v.render = .ok w
    | .error cause => ∃ place, ofText v.render = .error ⟨cause, some place⟩ := by
  have read := value_write v bracketBudget [] endsNumeral_nil
  rw [List.append_nil] at read
  rw [ofText, render, Reader.run, String.toList_ofList]
  cases h : reread bracketBudget v with
  | ok w =>
    rw [h] at read
    change value bracketBudget v.write = _ at read
    simp only [read]
    rfl
  | error cause =>
    rw [h] at read
    obtain ⟨unread, read⟩ := read
    simp only [read]
    exact ⟨_, rfl⟩

theorem ofText_render_eq_ok_iff {v w : Json} :
    ofText v.render = .ok w ↔ reread bracketBudget v = .ok w := by
  have text := ofText_render v
  cases h : reread bracketBudget v with
  | ok u =>
    rw [h] at text
    change ofText v.render = .ok u at text
    rw [text]
    simp
  | error cause =>
    rw [h] at text
    obtain ⟨place, text⟩ := text
    rw [text]
    simp

end Sieve.Json
