import Mathlib.Data.List.DropRight
import Sieve.Proofs.Instant.Colon
import Sieve.Proofs.Instant.Divider
import Sieve.Proofs.Instant.FullWidth

/-!
Texts that two layouts read. A blank or a letter behind the first number sets the layout of mail
headers apart from all others; so but for a layout and itself, only that of internet protocols
shares a text with a divided one, and those two say the same. It makes no difference to the instant
of a text in which order the layouts are tried.
-/

namespace Sieve

namespace Layout

open Scan

variable {cs rest : List Char} {l l' : DividedLayout} {reading other : Reading}

/-- What stands behind the blanks and the digits that the text starts with. -/
def lead (cs : List Char) : Option Char := ((blanks cs).dropWhile Char.isDigit).head?

theorem lead_eq (ds : List Char) {c : Char} (start : blanks cs = ds ++ c :: rest)
    (digits : ∀ d ∈ ds, d.isDigit = true) (stop : c.isDigit = false) : lead cs = some c := by
  rw [lead, start, List.dropWhile_append_of_pos digits, List.dropWhile_cons_of_neg (by simp [stop])]
  rfl

theorem lead_of_signedYear {year : Int} (h : signedYear cs = some (year, '-' :: rest)) :
    ∃ sign ∈ ['-', '+'], lead cs = some sign := by
  rw [signedYear] at h
  split at h
  · rename_i start
    exact ⟨'-', by simp, lead_eq [] start (List.forall_mem_nil _) rfl⟩
  · rename_i start
    exact ⟨'+', by simp, lead_eq [] start (List.forall_mem_nil _) rfl⟩
  · obtain ⟨⟨_, _⟩, read, made⟩ := Option.map_eq_some_iff.mp h
    cases made
    obtain ⟨ds, start, _, _, digits, _⟩ := number_eq_some read
    exact ⟨'-', by simp, lead_eq ds start digits rfl⟩

theorem lead_of_dividedReading (h : dividedReading l cs = some (reading, rest)) :
    ∃ sign ∈ ['-', '+'], lead cs = some sign := by
  rw [dividedReading_eq] at h
  obtain ⟨⟨_, _⟩, front_read, _⟩ := Option.bind_eq_some_iff.mp h
  obtain ⟨_, day, _⟩ := exists_of_dividedMinute front_read
  simp only [dividedDay, Option.bind_eq_bind, Option.bind_eq_some_iff] at day
  obtain ⟨⟨_, after⟩, year, ⟨_, _⟩, hyphen, _⟩ := day
  have hyphen : after = '-' :: _ := char_eq_some_iff.mp hyphen
  rw [hyphen] at year
  exact lead_of_signedYear year

theorem lead_of_internetReading (h : internetReading cs = some (reading, rest)) :
    lead cs = some '-' := by
  obtain ⟨t, tail, _, rfl, _⟩ := FullTime.exists_of_internetReading h
  exact lead_eq t.year (t.year_four.blanks (by decide) _) t.year_four.digits rfl

/-- No name of a day of the week starts with what leads another layout. -/
theorem other_of_toLower {c : Char} (h : c.toLower ∈ ['m', 't', 'w', 'f', 's']) :
    c.isDigit = false ∧ c ∉ ['-', '+', 'Z', 'z'] := by
  have letters : ∀ d ∈ ['m', 't', 'w', 'f', 's'], d.isDigit = false := by simp
  have signs : ∀ d ∈ ['-', '+', 'Z', 'z'], d.toLower ∉ ['m', 't', 'w', 'f', 's'] := by simp
  constructor
  · by_contra digit
    rw [Bool.not_eq_false] at digit
    rw [toLower_of_isDigit digit] at h
    rw [letters c h] at digit
    cases digit
  · intro sign
    exact signs c sign h

theorem exists_weekday {day : Int} (h : wordOf weekdays cs = some (day, rest)) :
    ∃ c after, cs = c :: after ∧ c.toLower ∈ ['m', 't', 'w', 'f', 's'] := by
  have initials : ∀ word ∈ weekdays, word.1.toList.head? ∈ ['m', 't', 'w', 'f', 's'].map some := by
    decide
  obtain ⟨value, known, _⟩ := Option.bind_eq_some_iff.mp h
  obtain ⟨before, after, split, _⟩ := List.lookup_eq_some_iff.mp known
  have mem : (String.ofList ((cs.take 3).map Char.toLower), value) ∈ weekdays := by simp [split]
  have initial := initials _ mem
  rw [String.toList_ofList] at initial
  match cs with
  | [] => exact absurd initial (by decide)
  | c :: after => exact ⟨c, after, rfl, by simpa using initial⟩

theorem lead_of_mailReading (h : mailReading cs = some (reading, rest)) :
    ∃ c, lead cs = some c ∧ c ∉ ['-', '+', 'Z', 'z'] := by
  simp only [mailReading, Option.bind_eq_bind, Option.bind_eq_some_iff] at h
  obtain ⟨⟨_, cs₁⟩, weekday, ⟨_, cs₂⟩, day, _, blank, _⟩ := h
  rw [mailWeekday] at weekday
  split at weekday
  · cases weekday
    obtain ⟨ds, start, _, _, digits, _⟩ := number_eq_some day
    have again : blanks (blanks cs) = blanks cs := List.dropWhile_idempotent _ _
    dsimp only at start blank
    rw [again] at start
    cases cs₂ with
    | nil => cases blank
    | cons c after =>
      obtain ⟨is_blank, _⟩ := Option.ite_none_right_eq_some.mp blank
      refine ⟨c, lead_eq ds start digits ?_, ?_⟩
      · by_contra digit
        rw [Bool.not_eq_false] at digit
        rw [Text.isBlank_of_isDigit digit] at is_blank
        cases is_blank
      · have signs : ∀ d ∈ ['-', '+', 'Z', 'z'], Text.isBlank d = false := by
          simp [Text.isBlank]
        intro sign
        rw [signs c sign] at is_blank
        cases is_blank
  · rename_i word
    obtain ⟨c, after, start, letter⟩ := exists_weekday word
    obtain ⟨no_digit, other⟩ := other_of_toLower letter
    exact ⟨c, lead_eq [] start (List.forall_mem_nil _) no_digit, other⟩

theorem plain_letter : ∀ letter ∈ ['Z', 'z'], Text.isBlank letter = false ∧
    letter.isDigit = false := by
  simp [Text.isBlank]

/-- A text leads with its last letter or does so whatever is put in the place of that. -/
theorem lead_append {front : List Char} {c letter : Char} (zulu : letter ∈ ['Z', 'z'])
    (h : lead (front ++ [letter]) = some c) (apart : c ≠ letter) (tail : List Char) :
    lead (front ++ tail) = some c := by
  obtain ⟨no_blank, no_digit⟩ := plain_letter letter zulu
  have not_last : ([letter].dropWhile Char.isDigit).head? ≠ some c := by
    rw [List.dropWhile_cons_of_neg (by simp [no_digit])]
    simpa using apart.symm
  have start : [letter].dropWhile Text.isBlank = [letter] :=
    List.dropWhile_cons_of_neg (by simp [no_blank])
  rw [lead, blanks, Text.trimStart, List.dropWhile_append] at h ⊢
  by_cases all_blank : (front.dropWhile Text.isBlank).isEmpty = true
  · rw [if_pos all_blank, start] at h
    exact absurd h not_last
  · rw [if_neg all_blank, List.dropWhile_append] at h ⊢
    by_cases all_digits : ((front.dropWhile Text.isBlank).dropWhile Char.isDigit).isEmpty = true
    · rw [if_pos all_digits] at h
      exact absurd h not_last
    · rw [if_neg all_digits] at h ⊢
      rw [List.isEmpty_iff] at all_digits
      rwa [List.head?_append_of_ne_nil _ all_digits] at h ⊢

theorem lead_spellLetter {c : Char} (h : lead cs = some c) (other : c ∉ ['Z', 'z']) :
    lead (spellLetter cs) = some c := by
  rcases spellLetter_cases cs with same | ⟨front, letter, zulu, rfl, spelled⟩
  · rwa [same]
  · rw [spelled]
    apply lead_append zulu h
    rintro rfl
    exact other zulu

/-- The layout of dates alone shares no text with another. -/
theorem eq_dateOnly_of_shared {layout : Layout} (h : dateOnly.read? cs = some reading)
    (h' : layout.read? cs = some other) : layout = .dateOnly :=
  eq_dateOnly_of_read? (colon_not_mem_of_dateOnlyReading (read?_eq_some_iff.mp h).1) h'

/-- The layout of mail headers shares no text with another. -/
theorem eq_mail_of_shared {layout : Layout} (h : mail.read? cs = some reading)
    (h' : layout.read? cs = some other) : layout = .mail := by
  have scanned := (read?_eq_some_iff.mp h).1
  have scanned' := (read?_eq_some_iff.mp h').1
  obtain ⟨c, leads, apart⟩ := lead_of_mailReading scanned
  have no_sign : ∀ sign ∈ ['-', '+'], lead cs ≠ some sign := by
    intro sign mem leads'
    cases leads.symm.trans leads'
    exact apart (List.mem_append_left ['Z', 'z'] mem)
  cases layout with
  | internet => exact absurd (lead_of_internetReading scanned') (no_sign '-' (by simp))
  | mail => rfl
  | divided l =>
    have spelled : lead (if l.offset then spellLetter cs else cs) = lead cs := by
      split
      · rw [leads]
        apply lead_spellLetter leads
        exact fun zulu => apart (List.mem_append_right ['-', '+'] zulu)
      · rfl
    obtain ⟨sign, mem, leads'⟩ := lead_of_dividedReading scanned'
    exact absurd (spelled ▸ leads') (no_sign sign mem)
  | dateOnly => cases eq_dateOnly_of_shared h' h

/-- **No text is read in two ways.** -/
theorem reading_eq_of_read? {layout layout' : Layout} (h : layout.read? cs = some reading)
    (h' : layout'.read? cs = some other) : reading = other := by
  have scanned := (read?_eq_some_iff.mp h).1
  have scanned' := (read?_eq_some_iff.mp h').1
  have of_same (same : layout = layout') : reading = other := by
    subst same
    exact Option.some.inj (h.symm.trans h')
  cases layout with
  | mail => exact of_same (eq_mail_of_shared h h').symm
  | dateOnly => exact of_same (eq_dateOnly_of_shared h h').symm
  | internet =>
    cases layout' with
    | internet => exact of_same rfl
    | mail => exact of_same (eq_mail_of_shared h' h)
    | divided l => exact (reading_eq_of_internetReading scanned scanned').symm
    | dateOnly => exact of_same (eq_dateOnly_of_shared h' h)
  | divided l =>
    cases layout' with
    | internet => exact reading_eq_of_internetReading scanned' scanned
    | mail => exact of_same (eq_mail_of_shared h' h)
    | divided l' => exact of_same (congrArg divided (eq_of_spelled scanned scanned'))
    | dateOnly => exact of_same (eq_dateOnly_of_shared h' h)

/-- Layouts that decide a text agree on it. -/
theorem instant_eq_of_instant? {layout layout' : Layout} {configured : UtcOffset}
    {instant instant' : Instant} (h : layout.instant? configured cs = some instant)
    (h' : layout'.instant? configured cs = some instant') : instant = instant' := by
  rw [instant?] at h h'
  cases read : layout.read? cs with
  | none => rw [read] at h; cases h
  | some reading =>
    cases read' : layout'.read? cs with
    | none => rw [read'] at h'; cases h'
    | some reading' =>
      rw [read] at h
      rw [read', ← reading_eq_of_read? read read'] at h'
      exact Option.some.inj (h.symm.trans h')

/-- The first that decides a text is any that does. -/
theorem findSome?_instant?_eq_some_iff {layouts : List Layout} {configured : UtcOffset}
    {instant : Instant} :
    (layouts.findSome? fun layout => layout.instant? configured cs) = some instant ↔
      ∃ layout ∈ layouts, layout.instant? configured cs = some instant := by
  constructor
  · intro h
    exact List.exists_of_findSome?_eq_some h
  · rintro ⟨layout, mem, decided⟩
    cases first : layouts.findSome? fun layout => layout.instant? configured cs with
    | none =>
      have undecided := List.findSome?_eq_none_iff.mp first layout mem
      rw [decided] at undecided
      cases undecided
    | some found =>
      obtain ⟨_, _, decided'⟩ := List.exists_of_findSome?_eq_some first
      rw [instant_eq_of_instant? decided' decided]

end Layout

namespace Instant

/-- A text names the moment of what any of the layouts reads in it. -/
theorem parse_eq_of_read {text : String} {configured : UtcOffset} {layout : Layout}
    {reading : Reading} {millis : Int} (tried : layout ∈ Layout.all)
    (read : layout.read? (Text.trim text.toList) = some reading)
    (moment : reading.millisAt? (reading.offset.getD configured.seconds) = some millis) :
    parse text configured = ⟨some millis⟩ := by
  have decided : layout.instant? configured (Text.trim text.toList) = some ⟨some millis⟩ := by
    rw [Layout.instant?, read]
    cases offset : reading.offset with
    | none => simpa [offset] using moment
    | some seconds => simpa [offset] using moment
  rw [parse, Layout.findSome?_instant?_eq_some_iff.mpr ⟨layout, tried, decided⟩]
  rfl

/-- **The order of the layouts does not matter.** Whatever layouts take a text, tried or not, they
read the same in it, and so those that decide it at an offset name the same instant; a text names
that instant in whichever order the layouts are tried. -/
theorem named_in_any_order (text : String) (configured : UtcOffset) :
    (∀ layout layout' : Layout, ∀ reading reading',
      layout.read? (Text.trim text.toList) = some reading →
      layout'.read? (Text.trim text.toList) = some reading' → reading = reading') ∧
    (∀ layout layout' : Layout, ∀ instant instant',
      layout.instant? configured (Text.trim text.toList) = some instant →
      layout'.instant? configured (Text.trim text.toList) = some instant' →
      instant.millis? = instant'.millis?) ∧
    ∀ order : List Layout, (∀ layout, layout ∈ order ↔ layout ∈ Layout.all) →
      (order.findSome? fun layout =>
        layout.instant? configured (Text.trim text.toList)).getD .invalid =
        parse text configured := by
  refine ⟨fun _ _ _ _ h h' => Layout.reading_eq_of_read? h h', ?_, ?_⟩
  · intro layout layout' instant instant' h h'
    exact congrArg millis? (Layout.instant_eq_of_instant? h h')
  · intro order same
    have first : (order.findSome? fun layout =>
        layout.instant? configured (Text.trim text.toList)) =
        Layout.all.findSome? fun layout =>
          layout.instant? configured (Text.trim text.toList) := by
      ext instant
      simp only [Layout.findSome?_instant?_eq_some_iff, same]
    rw [parse, first]

/-- A leap second that the layout of internet protocols takes and a divided one too, and that is the
same in the opposite order. -/
theorem leap_second_in_two_layouts :
    ((Layout.divided ⟨true, true, true⟩).instant? .utc
        (Text.trim "2016-12-31 23:59:60.25z".toList)).isSome = true ∧
    (∀ instant, (Layout.divided ⟨true, true, true⟩).instant? .utc
        (Text.trim "2016-12-31 23:59:60.25z".toList) = some instant →
      instant.millis? = some 1483228800250) ∧
    (Layout.all.reverse.findSome? fun layout =>
      layout.instant? .utc (Text.trim "2016-12-31 23:59:60.25z".toList)).getD .invalid =
      parse "2016-12-31 23:59:60.25z" .utc := by
  have internet : Layout.internet.instant? .utc (Text.trim "2016-12-31 23:59:60.25z".toList) =
      some ⟨some 1483228800250⟩ := by
    decide +kernel
  obtain ⟨_, agree, orders⟩ := named_in_any_order "2016-12-31 23:59:60.25z" .utc
  refine ⟨by decide +kernel, ?_, orders _ fun _ => List.mem_reverse⟩
  intro instant taken
  exact agree _ _ _ _ taken internet

end Instant

end Sieve
