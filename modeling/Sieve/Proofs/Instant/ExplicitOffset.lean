import Sieve.Proofs.Instant.Unambiguous

/-!
Offsets written after a date-time. Some layout reads such a text and finds the date and the time with
that offset, and no other reads anything else in it; so the text names the moment of the date-time
alone at that offset.
-/

namespace Sieve

namespace Scan

/-- Hours and minutes east of Greenwich, or west of it, with a colon between. -/
def offsetText (west : Bool) (minutes : Nat) : List Char :=
  (if west then '-' else '+') ::
    (Decimal.padded 2 (minutes / 60) ++ ':' :: Decimal.padded 2 (minutes % 60))

/-- The seconds of so many minutes east of Greenwich, or west of it. -/
def offsetSeconds (west : Bool) (minutes : Nat) : Int :=
  if west then -(60 * minutes) else 60 * minutes

/-- How an offset is written after a date-time: by the letter Z, or by its hours and minutes. -/
inductive SpellsOffset : Int → List Char → Prop
  | letter : SpellsOffset 0 ['Z']
  | signed (west : Bool) (minutes : Nat) (short : minutes ≤ 1439) :
      SpellsOffset (offsetSeconds west minutes) (offsetText west minutes)

theorem offsetMinutes_padded {minutes : Nat} (h : minutes < 60) (hoursAlone : Bool) :
    offsetMinutes hoursAlone (Decimal.padded 2 minutes) = some (minutes, []) := by
  have read : fixed 2 (Decimal.padded 2 minutes ++ []) = some (minutes, []) :=
    fixed_padded (by decide) (by omega) []
  rw [List.append_nil] at read
  obtain ⟨c, cs, split⟩ := List.exists_cons_of_ne_nil (Decimal.padded_ne_nil 2 minutes)
  rw [split] at read ⊢
  rw [offsetMinutes]
  · simp only [read, Option.bind_eq_bind, Option.bind_some, h, if_true]
  · exact List.cons_ne_nil c cs

/-- The hours are read up to the colon and the minutes after it. -/
theorem offset_offsetText {form : OffsetForm} {minutes : Nat} (west : Bool)
    (short : minutes ≤ 1439)
    (between : form.between (':' :: Decimal.padded 2 (minutes % 60)) =
      some (Decimal.padded 2 (minutes % 60))) :
    offset form (offsetText west minutes) = some (offsetSeconds west minutes, []) := by
  have hours : minutes / 60 < 10 ^ 2 := by omega
  have rest : minutes % 60 < 60 := Nat.mod_lt _ (by decide)
  have two : 0 < 2 := by decide
  have signed : offset form (offsetText west minutes) =
      signedOffset form (offsetText west minutes) := by
    unfold offset offsetText
    cases form.letter <;> cases west <;> rfl
  have sign : sign form.typeset (offsetText west minutes) =
      some (west, Decimal.padded 2 (minutes / 60) ++ ':' :: Decimal.padded 2 (minutes % 60)) := by
    cases west <;> rfl
  rw [signed, signedOffset]
  simp only [sign, fixed_padded two hours, between, offsetMinutes_padded rest,
    Option.bind_eq_bind, Option.bind_some, offsetSeconds]
  cases west
  · simp only [Bool.false_eq_true, if_false, Option.some.injEq, Prod.mk.injEq, and_true]
    omega
  · simp only [if_true, Option.some.injEq, Prod.mk.injEq, and_true]
    omega

end Scan

namespace Layout

open Scan

theorem internetOffset_offsetText {minutes : Nat} (west : Bool) (short : minutes ≤ 1439) :
    Scan.offset internetOffset (offsetText west minutes) =
      some (offsetSeconds west minutes, []) := by
  apply offset_offsetText west short
  change (char ':' (':' :: Decimal.padded 2 (minutes % 60))).map (·.2) = _
  rw [char_self]
  rfl

theorem looseOffset_offsetText {minutes : Nat} (west : Bool) (short : minutes ≤ 1439) :
    offsetPart true (offsetText west minutes) = some (some (offsetSeconds west minutes), []) := by
  have start : blanks (offsetText west minutes) = offsetText west minutes := by
    cases west <;> rfl
  have stop : ((':' :: Decimal.padded 2 (minutes % 60)).dropWhile fun c =>
      c == ':' || Text.isBlank c) = Decimal.padded 2 (minutes % 60) := by
    obtain ⟨c, cs, split, digit⟩ := exists_padded_cons 2 (minutes % 60) []
    rw [List.append_nil] at split
    have not_colon : c ≠ ':' := by
      rintro rfl
      cases digit
    rw [split, List.dropWhile_cons_of_pos rfl, List.dropWhile_cons_of_neg]
    simp [not_colon, Text.isBlank_of_isDigit digit]
  have read : Scan.offset looseOffset (offsetText west minutes) =
      some (offsetSeconds west minutes, []) := by
    apply offset_offsetText west short
    exact congrArg some stop
  rw [offsetPart, if_pos rfl, start, read]
  rfl

end Layout

namespace Scan.SpellsOffset

open Layout PlainTime

variable {seconds : Int} {suffix : List Char}

theorem ends (h : SpellsOffset seconds suffix) : Ends suffix := by
  intro c hc
  cases h with
  | letter =>
    cases hc
    decide
  | signed west minutes _ => cases west <;> cases hc <;> decide

theorem isDigit_of_mem_getLast? {west : Bool} {minutes : Nat} (front : List Char) :
    ∀ c ∈ (front ++ offsetText west minutes).getLast?, c.isDigit = true := by
  have split : front ++ offsetText west minutes =
      (front ++ (if west then '-' else '+') :: (Decimal.padded 2 (minutes / 60) ++ [':'])) ++
        Decimal.padded 2 (minutes % 60) := by
    simp only [offsetText, List.append_assoc, List.cons_append, List.nil_append]
  intro c hc
  rw [split, List.getLast?_append_of_ne_nil _ (Decimal.padded_ne_nil 2 _)] at hc
  exact Decimal.isDigit_of_mem_padded (List.mem_of_getLast? hc)

theorem not_blank_of_mem_getLast? (h : SpellsOffset seconds suffix) :
    ∀ c ∈ suffix.getLast?, Text.isBlank c = false := by
  intro c hc
  cases h with
  | letter =>
    cases hc
    rfl
  | signed west minutes _ => exact Text.isBlank_of_isDigit (isDigit_of_mem_getLast? [] c hc)

theorem bounds (h : SpellsOffset seconds suffix) : -86400 < seconds ∧ seconds < 86400 := by
  cases h with
  | letter => decide
  | signed west minutes short =>
    unfold offsetSeconds
    cases west
    · simp only [Bool.false_eq_true, if_false]
      omega
    · simp only [if_true]
      omega

theorem offset_internetOffset (h : SpellsOffset seconds suffix) :
    Scan.offset internetOffset suffix = some (seconds, []) := by
  cases h with
  | letter => rfl
  | signed west minutes short => exact internetOffset_offsetText west short

/-- The layouts with a divider read the letter as the offset that it stands for. -/
theorem exists_spellLetter (h : SpellsOffset seconds suffix) (front : List Char) :
    ∃ spelled, spellLetter (front ++ suffix) = front ++ spelled ∧ Ends spelled ∧
      offsetPart true spelled = some (some seconds, []) := by
  cases h with
  | letter =>
    have none_west : "+00:00".toList = offsetText false 0 := by decide
    refine ⟨offsetText false 0, ?_, ends (.signed false 0 (by decide)), ?_⟩
    · rw [spellLetter_letter (by decide), none_west]
    · exact looseOffset_offsetText false (by decide)
  | signed west minutes short =>
    exact ⟨_, spellLetter_of_digit (isDigit_of_mem_getLast? front), ends (.signed west _ short),
      looseOffset_offsetText west short⟩

end Scan.SpellsOffset

namespace PlainTime

open Scan Layout

variable {t : PlainTime} {seconds : Int} {suffix : List Char}

/-- **A date-time without an offset.** It names the moment at which the clocks of the configured
offset show it. -/
theorem parse_write (t : PlainTime) (configured : UtcOffset) :
    Instant.parse (String.ofList t.write) configured =
      ⟨(t.reading none).millisAt? configured.seconds⟩ := by
  have trimmed : Text.trim (String.ofList t.write).toList = t.write := by
    have alone : Text.trim (t.write ++ []) = t.write ++ [] := trim_write (by simp)
    rw [List.append_nil] at alone
    rw [String.toList_ofList, alone]
  have tried : ∀ spaced seconds, Layout.divided ⟨spaced, seconds, false⟩ ∈ Layout.all := by decide
  obtain ⟨millis, moment⟩ := t.exists_millisAt? none configured.above configured.below
  have read := t.read?_write
  rw [← trimmed] at read
  rw [moment]
  exact Instant.parse_eq_of_read (tried _ _) read moment

/-- The layout of internet protocols reads the text if it has a second, and otherwise the one with
its divider that ends with the minute does. -/
theorem exists_read?_write_append (t : PlainTime) (spelled : SpellsOffset seconds suffix) :
    ∃ layout ∈ Layout.all,
      layout.read? (t.write ++ suffix) = some (t.reading (some seconds)) := by
  cases second : t.second?.isSome with
  | true =>
    refine ⟨.internet, by decide, read?_eq_some_iff.mpr ⟨?_, t.isReal_reading _⟩⟩
    rw [scan, internetReading_write spelled.ends, spelled.offset_internetOffset, second]
    rfl
  | false =>
    have tried : ∀ spaced, Layout.divided ⟨spaced, false, true⟩ ∈ Layout.all := by decide
    obtain ⟨whole, respelled, ends, taken⟩ := spelled.exists_spellLetter t.write
    have read := dividedReading_write (t := t) true ends
    rw [second, taken] at read
    refine ⟨_, tried t.spaced, read?_eq_some_iff.mpr ⟨?_, t.isReal_reading _⟩⟩
    simp only [scan, if_true, respelled, read]
    rfl

theorem parse_write_append (t : PlainTime) (spelled : SpellsOffset seconds suffix)
    (configured : UtcOffset) :
    Instant.parse (String.ofList (t.write ++ suffix)) configured =
      ⟨(t.reading (some seconds)).millisAt? seconds⟩ := by
  have trimmed : Text.trim (String.ofList (t.write ++ suffix)).toList = t.write ++ suffix := by
    rw [String.toList_ofList, trim_write spelled.not_blank_of_mem_getLast?]
  obtain ⟨millis, moment⟩ := t.exists_millisAt? (some seconds) spelled.bounds.1 spelled.bounds.2
  obtain ⟨layout, tried, read⟩ := t.exists_read?_write_append spelled
  rw [← trimmed] at read
  rw [moment]
  exact Instant.parse_eq_of_read tried read moment

/-- **An offset that is written means what the same one means where it is configured.** A date-time
with an offset after it, be it the letter Z or any hours and minutes short of a day, names a point
in time whatever is configured, and it is the one that the date-time alone names at that offset. -/
theorem written_offset_as_configured (t : PlainTime) (suffix : List Char) (here : UtcOffset)
    (spelled : SpellsOffset here.seconds suffix) (configured : UtcOffset) :
    Instant.parse (String.ofList (t.write ++ suffix)) configured =
        Instant.parse (String.ofList t.write) here ∧
      (Instant.parse (String.ofList (t.write ++ suffix)) configured).isValid = true := by
  obtain ⟨millis, moment⟩ := t.exists_millisAt? (some here.seconds) here.above here.below
  have same : (t.reading none).millisAt? here.seconds = some millis := moment
  rw [t.parse_write_append spelled, t.parse_write, moment, same]
  exact ⟨rfl, rfl⟩

/-- The end of the minute 23:30 on the last day of 2023. -/
def lateOnNewYearsEve : PlainTime where
  date := ⟨2023, 12, 31⟩
  spaced := true
  hour := 23
  minute := 30
  second? := some ⟨59, ['5'], by decide, by decide, List.forall_mem_singleton.mpr rfl⟩
  real := by decide
  four_digits := by decide
  hour_lt := by decide
  minute_lt := by decide

/-- Half an hour west of Greenwich, the text names a moment of the next year. -/
theorem half_hour_west_into_new_year :
    Scan.SpellsOffset (-1800) "-00:30".toList ∧
      (Instant.parse "2023-12-31 23:30:59.5-00:30" .utc =
          Instant.parse "2023-12-31 23:30:59.5" ⟨-1800, by decide, by decide⟩ ∧
        (Instant.parse "2023-12-31 23:30:59.5-00:30" .utc).isValid = true) ∧
      Instant.parse "2023-12-31 23:30:59.5" ⟨-1800, by decide, by decide⟩ =
        ⟨some 1704067259500⟩ := by
  have spelled : Scan.SpellsOffset (-1800) "-00:30".toList := by
    have text : Scan.offsetText true 30 = "-00:30".toList := by decide
    exact text ▸ .signed true 30 (by decide)
  have bare : String.ofList lateOnNewYearsEve.write = "2023-12-31 23:30:59.5" := by decide +kernel
  have whole : String.ofList (lateOnNewYearsEve.write ++ "-00:30".toList) =
      "2023-12-31 23:30:59.5-00:30" := by
    decide +kernel
  have agree := written_offset_as_configured lateOnNewYearsEve "-00:30".toList
    ⟨-1800, by decide, by decide⟩ spelled .utc
  rw [bare, whole] at agree
  exact ⟨spelled, agree, by decide +kernel⟩

end PlainTime

end Sieve
