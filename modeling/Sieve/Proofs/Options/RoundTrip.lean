import Sieve.Options.Text
import Sieve.Proofs.Json.Skipped

/-!
Options through text. Each of the two keys is taken from wherever it stands among the members of an
object, and members under other keys are passed over. A key that is left out has its default, which
for the depth may be written as null too; and numbers come back exactly, at the ends of their ranges
as well.
-/

namespace Sieve

namespace Json

theorem spellsNumber_whole {i : Int} (above : -9223372036854775808 ≤ i)
    (below : i < 18446744073709551616) :
    SpellsNumber (.whole i above below) (Decimal.wholeDigits i) := by
  rw [← Numeral.text_ofInt]
  exact ⟨_, Numeral.proper_ofInt i, Numeral.spells_text _, Numeral.outcome_ofInt above below⟩

end Json

namespace Options

open Json

/-- A depth as it is written; null is written for none where the key is not left out. -/
def depthText : Option UInt64 → List Char
  | some depth => Decimal.digits depth.toNat
  | none => "null".toList

def offsetText (minutes : Int32) : List Char := Decimal.wholeDigits minutes.toInt

theorem depthText_some (depth : UInt64) :
    depthText (some depth) = Decimal.wholeDigits depth.toNat := by
  rw [Decimal.wholeDigits, if_neg (by omega)]
  rfl

/-- The texts of the members under a key, in their order. -/
def textsUnder (key : String) (entries : List (String × List Char)) : List (List Char) :=
  (entries.filter fun entry => entry.1 = key).map (·.2)

theorem textsUnder_cons_same (key : String) (text : List Char)
    (entries : List (String × List Char)) :
    textsUnder key ((key, text) :: entries) = text :: textsUnder key entries := by
  simp [textsUnder]

theorem textsUnder_cons_other {key name : String} (other : name ≠ key) (text : List Char)
    (entries : List (String × List Char)) :
    textsUnder key ((name, text) :: entries) = textsUnder key entries := by
  simp [textsUnder, other]

section Key

variable {α : Type} {text : α → List Char} {default value : α} {held : Option α}
  {part : List Char} {texts : List (List Char)}

/-- A key gives a value if it stands once with the text of that value, or not at all and the value
is the default. -/
def Gives (text : α → List Char) (default value : α) (texts : List (List Char)) : Prop :=
  texts = [text value] ∨ texts = [] ∧ value = default

/-- A key with what was read of it and what is still to come. -/
def Leads (text : α → List Char) (default value : α) (held : Option α)
    (texts : List (List Char)) : Prop :=
  held = none ∧ Gives text default value texts ∨ held = some value ∧ texts = []

theorem Leads.finish (h : Leads text default value held []) : held.getD default = value := by
  rcases h with ⟨rfl, given | ⟨_, rfl⟩⟩ | ⟨rfl, _⟩
  · cases given
  · rfl
  · rfl

/-- A key that is met was not met before, and will not be again. -/
theorem Leads.take (h : Leads text default value held (part :: texts)) :
    held = none ∧ part = text value ∧ Leads text default value (some value) texts := by
  rcases h with ⟨rfl, given | ⟨missing, _⟩⟩ | ⟨_, missing⟩
  · cases given
    exact ⟨rfl, rfl, Or.inr ⟨rfl, rfl⟩⟩
  · cases missing
  · cases missing

end Key

/-- Members that say these options, whatever stands under other keys. -/
structure Declares (entries : List (String × List Char)) (o : Options) : Prop where
  depth : Gives depthText none o.maxDepth (textsUnder depthKey entries)
  offset : Gives offsetText 0 o.naiveOffsetMinutes (textsUnder offsetKey entries)

/-- What was read so far leads with the members to come to these options. -/
structure Draft.LeadsTo (d : Draft) (entries : List (String × List Char)) (o : Options) : Prop where
  depth : Leads depthText none o.maxDepth d.depth (textsUnder depthKey entries)
  offset : Leads offsetText 0 o.naiveOffsetMinutes d.offset (textsUnder offsetKey entries)

variable {o : Options} {d : Draft} {depth : Nat} {entries : List (String × List Char)}

theorem Declares.leadsTo (h : Declares entries o) : Draft.empty.LeadsTo entries o :=
  ⟨Or.inl ⟨rfl, h.depth⟩, Or.inl ⟨rfl, h.offset⟩⟩

theorem Draft.LeadsTo.finish (h : d.LeadsTo [] o) : d.finish = o := by
  have budget : d.depth.getD none = o.maxDepth := h.depth.finish
  have minutes : d.offset.getD 0 = o.naiveOffsetMinutes := h.offset.finish
  rw [Draft.finish, budget, minutes]

section Next

variable {part : List Char}

/-- What the next member must be where its name is the key of the depth, and where that leads. -/
theorem Draft.LeadsTo.next_depth (h : d.LeadsTo ((depthKey, part) :: entries) o) :
    d.depth = none ∧ part = depthText o.maxDepth ∧
      { d with depth := some o.maxDepth }.LeadsTo entries o := by
  obtain ⟨budget, minutes⟩ := h
  rw [textsUnder_cons_same] at budget
  rw [textsUnder_cons_other (by decide)] at minutes
  obtain ⟨fresh, same, taken⟩ := budget.take
  exact ⟨fresh, same, taken, minutes⟩

theorem Draft.LeadsTo.next_offset (h : d.LeadsTo ((offsetKey, part) :: entries) o) :
    d.offset = none ∧ part = offsetText o.naiveOffsetMinutes ∧
      { d with offset := some o.naiveOffsetMinutes }.LeadsTo entries o := by
  obtain ⟨budget, minutes⟩ := h
  rw [textsUnder_cons_other (by decide)] at budget
  rw [textsUnder_cons_same] at minutes
  obtain ⟨fresh, same, taken⟩ := minutes.take
  exact ⟨fresh, same, budget, taken⟩

/-- A member under any other name says nothing. -/
theorem Draft.LeadsTo.next_other {name : String} (first : name ≠ depthKey)
    (second : name ≠ offsetKey) (h : d.LeadsTo ((name, part) :: entries) o) :
    d.LeadsTo entries o := by
  obtain ⟨budget, minutes⟩ := h
  rw [textsUnder_cons_other first] at budget
  rw [textsUnder_cons_other second] at minutes
  exact ⟨budget, minutes⟩

end Next

section Values

variable {α : Type} {meaning : Found → Except Cause α}

theorem field_takes_number {n : Number} {text : List Char} {a : α} (spelled : SpellsNumber n text)
    (means : meaning (.number n) = .ok a) : Takes (field meaning) text (some a) := by
  intro before rest blank ends
  have read := scalar_spelled_number spelled ends
  unfold field
  rw [scalar_blanks blank, read]
  simp only [bind, Except.bind, means]
  rfl

theorem depth_takes (depth : Option UInt64) :
    Takes (field depthOf) (depthText depth) (some depth) := by
  cases depth with
  | none =>
    intro before rest blank ends
    unfold field
    rw [scalar_blanks blank]
    rfl
  | some depth =>
    have small : depth.toNat < 18446744073709551616 := depth.toNat_lt
    rw [depthText_some]
    refine field_takes_number (spellsNumber_whole (by omega) (by omega)) ?_
    rw [depthOf, if_pos (by omega), Int.toNat_natCast, UInt64.ofNat_toNat]

theorem offset_takes (minutes : Int32) :
    Takes (field offsetOf) (offsetText minutes) (some minutes) := by
  have above : -2147483648 ≤ minutes.toInt := minutes.le_toInt
  have below : minutes.toInt < 2147483648 := minutes.toInt_lt
  refine field_takes_number (spellsNumber_whole (by omega) (by omega)) ?_
  rw [offsetOf, if_pos ⟨above, below⟩, Int32.ofInt_toInt]

end Values

/-- A step of the loop: one member is read, whichever key it has. -/
theorem member_takes {entry : String × List Char} {text : List Char}
    (h : SpellsMember (Verbatim (Formed depth)) entry text)
    (leads : d.LeadsTo (entry :: entries) o) :
    ∃ inner, text = '"' :: inner ∧ ∃ d' : Draft, d'.LeadsTo entries o ∧
      ∀ rest, EndsNumeral rest → member d (inner ++ rest) = .ok (d', rest) := by
  cases h with
  | @mk name part quotes before after text named blank blank' value =>
    obtain ⟨rfl, formed⟩ := value
    obtain ⟨inner, spelled, rfl⟩ := named
    refine ⟨inner ++ '"' :: (before ++ ':' :: (after ++ text)), by simp, ?_⟩
    have name_read (rest : List Char) :=
      Reader.quoted_spelled spelled (before ++ ':' :: (after ++ (text ++ rest)))
    have colon_read (rest : List Char) := colon_spelled blank (after ++ (text ++ rest))
    have start (rest : List Char) : inner ++ '"' :: (before ++ ':' :: (after ++ text)) ++ rest =
        inner ++ '"' :: (before ++ ':' :: (after ++ (text ++ rest))) := by
      simp
    by_cases first : name = depthKey
    · subst first
      obtain ⟨fresh, rfl, leads'⟩ := leads.next_depth
      refine ⟨{ d with depth := some o.maxDepth }, leads', fun rest ends => ?_⟩
      have read := toOption_eq_some_iff.mp (depth_takes o.maxDepth after rest blank' ends)
      unfold member
      simp only [start, name_read, colon_read, read, fresh, bind, Except.bind, if_true]
      rfl
    · by_cases second : name = offsetKey
      · subst second
        obtain ⟨fresh, rfl, leads'⟩ := leads.next_offset
        refine ⟨{ d with offset := some o.naiveOffsetMinutes }, leads', fun rest ends => ?_⟩
        have read :=
          toOption_eq_some_iff.mp (offset_takes o.naiveOffsetMinutes after rest blank' ends)
        unfold member
        simp only [start, name_read, colon_read, read, fresh, bind, Except.bind, if_neg first,
          if_true]
        rfl
      · refine ⟨d, leads.next_other first second, fun rest ends => ?_⟩
        have read := toOption_eq_some_iff.mp (skip_takes formed after rest blank' ends)
        unfold member
        simp only [start, name_read, colon_read, read, bind, Except.bind, if_neg first,
          if_neg second]
        rfl

/-- The induction is on the members to come. -/
theorem members_takes {entry : String × List Char} {text more : List Char}
    (h : SpellsMember (Verbatim (Formed depth)) entry text)
    (later : SpellsMore (SpellsMember (Verbatim (Formed depth))) '}' entries more)
    (leads : d.LeadsTo (entry :: entries) o) (rounds : Nat) (enough : entries.length < rounds)
    (rest : List Char) :
    ∃ inner, text = '"' :: inner ∧ ∃ d' : Draft, d'.finish = o ∧
      members rounds d (inner ++ (more ++ rest)) = .ok (d', rest) := by
  induction later generalizing entry text d rounds with
  | @close before blank =>
    obtain ⟨rounds, rfl⟩ := Nat.exists_eq_succ_of_ne_zero (by omega : rounds ≠ 0)
    obtain ⟨inner, rfl, d', leads', read⟩ := member_takes h leads
    refine ⟨inner, rfl, d', leads'.finish, ?_⟩
    have ends := endsNumeral_blanks blank (c := '}') (by simp) rest
    have closed := nextName_close blank rest
    rw [List.append_assoc, List.singleton_append, members, read _ ends]
    simp only [bind, Except.bind, closed]
    rfl
  | @comma next entries before after part more blank blank' spelled later ih =>
    obtain ⟨rounds, rfl⟩ := Nat.exists_eq_succ_of_ne_zero (by omega : rounds ≠ 0)
    obtain ⟨inner, rfl, d', leads', read⟩ := member_takes h leads
    rw [List.length_cons] at enough
    obtain ⟨inner', rfl, final, finished, loop⟩ := ih spelled leads' rounds (by omega)
    refine ⟨inner, rfl, final, finished, ?_⟩
    have ends := endsNumeral_blanks blank (c := ',') (by simp)
      (after ++ '"' :: (inner' ++ (more ++ rest)))
    have opens := nextName_comma blank blank' (inner' ++ (more ++ rest))
    simp only [List.append_assoc, List.cons_append]
    rw [members, read _ ends]
    simp only [bind, Except.bind, opens]
    exact loop

theorem reader_takes {text : List Char} (h : FormedObject depth entries text)
    (declared : Declares entries o) : Takes reader text (some o) := by
  obtain ⟨inner, spelled, rfl⟩ := h
  intro before rest blank ends
  have start := scalar_brace blank (inner ++ rest)
  have body : object (inner ++ rest) = .ok (o, rest) := by
    cases spelled with
    | @empty before blank =>
      have ended := firstName_close blank rest
      rw [List.append_assoc, List.singleton_append]
      simp only [object, ended, bind, Except.bind]
      rw [declared.leadsTo.finish]
      rfl
    | @first entry entries before text more blank one later =>
      obtain ⟨inner, rfl⟩ := one.head
      -- Every member takes a character at least, so the rounds do not run out before the text.
      have enough : entries.length < (inner ++ (more ++ rest)).length + 1 := by
        have := later.length_le
        simp only [List.length_append]
        omega
      obtain ⟨_, same, d, finished, read⟩ :=
        members_takes one later declared.leadsTo _ enough rest
      cases same
      have opens := firstName_quote blank (inner ++ (more ++ rest))
      simp only [List.append_assoc, List.cons_append]
      simp only [object, opens, read, finished, bind, Except.bind]
      rfl
  rw [List.cons_append]
  apply toOption_eq_some_iff.mpr
  simp only [reader, start, bind, Except.bind, List.tail_cons, body]

theorem ofText_of_declares {text : String} (h : SpellsWhole (FormedObject depth) entries text)
    (declared : Declares entries o) : ofText text = .ok o := by
  obtain ⟨before, inner, after, blank, formed, blank', whole⟩ := h
  exact toOption_eq_some_iff.mp (run_spelled (reader_takes formed declared) blank blank' whole)

/-- The same for members that are written compactly. -/
theorem ofText_written (formed : ∀ entry ∈ entries, Formed depth entry.2)
    (declared : Declares entries o) : ofText (String.ofList (bracket '{' '}'
      (entries.map fun entry => writeMember entry.1 entry.2))) = .ok o := by
  refine ofText_of_declares ⟨[], _, [], blanks_nil, formedObject_written formed, blanks_nil, ?_⟩
    declared
  simp

/-- The members that options are written with. -/
def written (o : Options) : List (String × List Char) :=
  match o.maxDepth with
  | some depth => [(depthKey, depthText (some depth)), (offsetKey, offsetText o.naiveOffsetMinutes)]
  | none => [(offsetKey, offsetText o.naiveOffsetMinutes)]

theorem render_eq (o : Options) : o.render = String.ofList (bracket '{' '}'
    (o.written.map fun entry => writeMember entry.1 entry.2)) := by
  rw [render, write, written]
  cases o.maxDepth <;> rfl

theorem declares_written (o : Options) : Declares o.written o := by
  obtain ⟨maxDepth, minutes⟩ := o
  cases maxDepth with
  | none => exact ⟨Or.inr ⟨rfl, rfl⟩, Or.inl rfl⟩
  | some depth => exact ⟨Or.inl rfl, Or.inl rfl⟩

theorem formed_wholeDigits (i : Int) : FormedScalar (Decimal.wholeDigits i) := by
  rw [← Numeral.text_ofInt]
  exact .number (Numeral.proper_ofInt i) (Numeral.spells_text _)

theorem formed_written (o : Options) : ∀ entry ∈ o.written, Formed 0 entry.2 := by
  have minutes : Formed 0 (offsetText o.naiveOffsetMinutes) := formed_wholeDigits _
  rw [written]
  cases o.maxDepth with
  | none => exact List.forall_mem_singleton.mpr minutes
  | some depth =>
    have budget : Formed 0 (depthText (some depth)) := by
      rw [depthText_some]
      exact formed_wholeDigits depth.toNat
    exact List.forall_mem_cons.mpr ⟨budget, List.forall_mem_singleton.mpr minutes⟩

/-- **The round trip of options.** Options come back from their own text, and from the text of every
object whose members declare them: each key once with its value, or left out for its default, in any
order and between any members under other keys, which may stand there more than once and hold any
JSON. That goes for every spelling of the object, and for what is written for it. -/
theorem read_back_among_other_members (o : Options) :
    ofText o.render = .ok o ∧
    (∀ depth entries text, SpellsWhole (FormedObject depth) entries text → Declares entries o →
      ofText text = .ok o) ∧
    ∀ members, Declares (writtenMembers members) o →
      ofText (Json.object members).render = .ok o := by
  refine ⟨?_, fun depth entries text => ofText_of_declares, fun members declared => ?_⟩
  · rw [render_eq]
    exact ofText_written o.formed_written o.declares_written
  · rw [Json.render, write_object]
    -- How deep the values are nested is not counted; no text is nested deeper than it is long.
    have formed : ∀ entry ∈ writtenMembers members,
        Formed (Json.object members).write.length entry.2 := by
      intro entry hentry
      obtain ⟨member, hmember, rfl⟩ := List.mem_map.mp hentry
      exact formed_write member.2 (Nat.le_of_lt (length_lt_object hmember))
    exact ofText_written formed declared

/-- The least offset and no depth between members that no value could be read from, one of them
under a name that is escaped. -/
def leastAmongOthers : String :=
  "\x7b\"x\":[\x7b\"max_depth\":1e999\x7d],\"naive_utc_offset_minutes\" : -2147483648," ++
    "\"\\u0078\":\"\\ud800\",\"max_depth\":null\x7d"

/-- The greatest depth, under a name that stands inside the other members too. -/
def greatestAmongOthers : List (String × Json) :=
  [("é", .array [.string "max_depth"]),
    ("max_depth", .number (.whole 18446744073709551615 (by decide) (by decide))),
    ("é", .object [("max_depth", .bool false)])]

theorem ends_of_ranges_read_back :
    ofText leastAmongOthers = .ok ⟨none, Int32.minValue⟩ ∧
    ofText (Json.object greatestAmongOthers).render = .ok ⟨some 18446744073709551615, 0⟩ := by
  constructor
  · have named (s : String) : SpellsString s (quote s.toList) := spellsString_quote s
    have space : Blanks [' '] := by simp [Blanks]
    have hex (d : Nat) (small : d < 16) : SpellsHex d (hexDigit d) := ⟨small, Or.inl rfl⟩
    have half : SpellsCode 0xD800 _ :=
      .cons (hex 13 (by decide)) (.cons (hex 8 (by decide)) (.cons (hex 0 (by decide))
        (.cons (hex 0 (by decide)) .nil)))
    have no_character : FormedString _ := ⟨[_], List.forall_mem_singleton.mpr (.code half), rfl⟩
    have letter : SpellsCode 'x'.toNat _ :=
      .cons (hex 0 (by decide)) (.cons (hex 0 (by decide)) (.cons (hex 7 (by decide))
        (.cons (hex 8 (by decide)) .nil)))
    have escaped : SpellsString "x" _ := ⟨_, .cons (.code letter) .nil, rfl⟩
    have huge : FormedScalar ['1', 'e', '9', '9', '9'] := by
      have proper : (⟨false, ['1'], none, some (false, ['9', '9', '9'])⟩ : Numeral).Proper :=
        ⟨⟨by simp, List.forall_mem_singleton.mpr rfl⟩, by simp, by simp, by simp [Numeral.Digits]⟩
      exact .number proper ⟨_, .present _ (Or.inl rfl) (List.mem_cons_self ..), rfl⟩
    have nested : FormedOver (Formed 1) _ := .array (.first blanks_nil ⟨rfl, .object
      (.first blanks_nil (.mk (named depthKey) blanks_nil blanks_nil ⟨rfl, huge⟩)
        (.close blanks_nil))⟩ (.close blanks_nil))
    have least : FormedScalar (offsetText Int32.minValue) := formed_wholeDigits _
    have spelled : SpellsWhole (FormedObject 2) _ leastAmongOthers :=
      ⟨_, _, _, blanks_nil,
        ⟨_, .first blanks_nil (.mk (named "x") blanks_nil blanks_nil ⟨rfl, nested⟩)
          (.comma blanks_nil blanks_nil
            (.mk (named offsetKey) space space ⟨rfl, .scalar least⟩)
            (.comma blanks_nil blanks_nil
              (.mk escaped blanks_nil blanks_nil ⟨rfl, .scalar (.string no_character)⟩)
              (.comma blanks_nil blanks_nil
                (.mk (named depthKey) blanks_nil blanks_nil ⟨rfl, .scalar .null⟩)
                (.close blanks_nil)))), rfl⟩, blanks_nil, by decide +kernel⟩
    exact (read_back_among_other_members _).2.1 _ _ _ spelled ⟨Or.inl rfl, Or.inl rfl⟩
  · have declared : Declares (writtenMembers greatestAmongOthers)
        ⟨some 18446744073709551615, 0⟩ :=
      ⟨Or.inl (by decide +kernel), Or.inr ⟨by decide +kernel, rfl⟩⟩
    exact (read_back_among_other_members _).2.2 _ declared

end Options

end Sieve
