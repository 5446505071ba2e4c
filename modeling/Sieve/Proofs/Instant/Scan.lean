import Mathlib.Data.List.Infix
import Mathlib.Data.List.TakeWhile
import Sieve.Instant.Layout

/-!
What scans take off a text, and what the layouts make of it. A scan only ever leaves a suffix of the
text, and a number is the run of digits that it takes. A last letter Z is spelled out as an offset
before a layout with one looks at the text.
-/

namespace Sieve

/-- A reading comes to a moment on its own clock, less the offset of that clock. -/
theorem Reading.millisAt?_eq_some_iff {reading : Reading} {offset millis : Int} :
    reading.millisAt? offset = some millis ↔
      (-86400 < offset ∧ offset < 86400 ∧ Calendar.firstSecond ≤ reading.seconds offset ∧
        reading.seconds offset ≤ Calendar.lastSecond) ∧
      1000 * reading.seconds offset + (if reading.second = 60 then 1000 else 0) +
        (reading.nanos / 1000000 : Nat) = millis := by
  simp only [millisAt?]
  rw [Option.ite_none_right_eq_some, Option.some.injEq]

namespace Scan

variable {cs rest : List Char}

theorem char_eq_some_iff {c : Char} {u : Unit} : char c cs = some (u, rest) ↔ cs = c :: rest := by
  cases cs with
  | nil => simp [char]
  | cons d cs =>
    rw [char]
    by_cases same : d = c
    · rw [if_pos same, same]
      simp
    · rw [if_neg same]
      simp [same]

theorem char_suffix {c : Char} {u : Unit} (h : char c cs = some (u, rest)) : rest <:+ cs := by
  rw [char_eq_some_iff.mp h]
  exact List.suffix_cons c rest

theorem char_mem {c : Char} {u : Unit} (h : char c cs = some (u, rest)) : c ∈ cs := by
  rw [char_eq_some_iff.mp h]
  exact List.mem_cons_self

theorem blanks_suffix (cs : List Char) : blanks cs <:+ cs := List.dropWhile_suffix _

/-- A number is read off the digits that the text starts with. -/
theorem number_eq_some {least most n : Nat} (h : number least most cs = some (n, rest)) :
    ∃ ds, cs = ds ++ rest ∧ least ≤ ds.length ∧ ds.length ≤ most ∧
      (∀ c ∈ ds, c.isDigit = true) ∧ Nat.ofDigitChars 10 ds 0 = n := by
  have front : (cs.take most).takeWhile Char.isDigit <+: cs :=
    (List.takeWhile_prefix _).trans (List.take_prefix most cs)
  have short : ((cs.take most).takeWhile Char.isDigit).length ≤ most :=
    (List.takeWhile_prefix _).length_le.trans (List.length_take_le most cs)
  rw [number] at h
  simp only [Option.ite_none_left_eq_some, Option.some.injEq, Prod.mk.injEq] at h
  obtain ⟨enough, value, left⟩ := h
  refine ⟨_, ?_, Nat.le_of_not_lt enough, short, fun c hc => List.mem_takeWhile_imp hc, value⟩
  rw [← left]
  exact (List.prefix_iff_eq_append.mp front).symm

theorem number_suffix {least most n : Nat} (h : number least most cs = some (n, rest)) :
    rest <:+ cs := by
  obtain ⟨ds, split, _⟩ := number_eq_some h
  exact ⟨ds, split.symm⟩

theorem digits_suffix {least n : Nat} (h : digits least cs = some (n, rest)) : rest <:+ cs := by
  rw [digits] at h
  simp only [Option.ite_none_left_eq_some, Option.some.injEq, Prod.mk.injEq] at h
  rw [← h.2.2]
  exact List.drop_suffix _ _

theorem short_suffix {n : Nat} (h : short cs = some (n, rest)) : rest <:+ cs :=
  (number_suffix h).trans (blanks_suffix cs)

theorem someBlanks_suffix {u : Unit} (h : someBlanks cs = some (u, rest)) : rest <:+ cs := by
  cases cs with
  | nil => cases h
  | cons c cs =>
    obtain ⟨_, made⟩ := Option.ite_none_right_eq_some.mp h
    cases made
    exact (blanks_suffix cs).trans (List.suffix_cons c cs)

theorem wordOf_suffix {α : Type} {words : List (String × α)} {value : α}
    (h : wordOf words cs = some (value, rest)) : rest <:+ cs := by
  obtain ⟨_, _, made⟩ := Option.bind_eq_some_iff.mp h
  cases made
  exact List.drop_suffix 3 cs

end Scan

namespace Layout

open Scan

variable {cs rest : List Char}

theorem signedYear_suffix {year : Int} (h : signedYear cs = some (year, rest)) : rest <:+ cs := by
  have start := blanks_suffix cs
  rw [signedYear] at h
  split at h
  · rename_i front
    obtain ⟨found, read, made⟩ := Option.map_eq_some_iff.mp h
    cases made
    rw [front] at start
    exact (digits_suffix read).trans ((List.suffix_cons _ _).trans start)
  · rename_i front
    obtain ⟨found, read, made⟩ := Option.map_eq_some_iff.mp h
    cases made
    rw [front] at start
    exact (digits_suffix read).trans ((List.suffix_cons _ _).trans start)
  · obtain ⟨found, read, made⟩ := Option.map_eq_some_iff.mp h
    cases made
    exact (number_suffix read).trans start

theorem divider_suffix {blank : Bool} {u : Unit} (h : divider blank cs = some (u, rest)) :
    rest <:+ cs := by
  cases blank with
  | true =>
    cases h
    exact blanks_suffix cs
  | false => exact char_suffix h

theorem internetDivider_suffix {u : Unit} (h : internetDivider cs = some (u, rest)) :
    rest <:+ cs := by
  unfold internetDivider at h
  split at h
  case h_4 => cases h
  all_goals
    cases h
    exact List.suffix_cons _ _

theorem mailWeekday_suffix {day? : Option Int} (h : mailWeekday cs = some (day?, rest)) :
    rest <:+ cs := by
  unfold mailWeekday at h
  split at h
  · cases h
    exact List.suffix_refl cs
  · rename_i word
    obtain ⟨_, comma, made⟩ := Option.bind_eq_some_iff.mp h
    cases made
    exact (char_suffix comma).trans (wordOf_suffix word)

theorem mailYear_suffix {year : Nat} (h : mailYear cs = some (year, rest)) : rest <:+ cs := by
  obtain ⟨_, digits, made⟩ := Option.bind_eq_some_iff.mp h
  cases made
  exact digits_suffix digits

theorem spellLetter_of_digit {cs : List Char} (last : ∀ c ∈ cs.getLast?, c.isDigit = true) :
    spellLetter cs = cs := by
  rw [spellLetter]
  rw [← List.head?_reverse] at last
  split
  · rename_i reversed
    rw [reversed] at last
    cases last 'Z' rfl
  · rename_i reversed
    rw [reversed] at last
    cases last 'z' rfl
  · rfl

theorem spellLetter_letter {letter : Char} (zulu : letter ∈ ['Z', 'z']) (front : List Char) :
    spellLetter (front ++ [letter]) = front ++ "+00:00".toList := by
  rw [spellLetter, List.reverse_concat]
  have capital_or_small : letter = 'Z' ∨ letter = 'z' := by simpa using zulu
  rcases capital_or_small with rfl | rfl <;> simp only [List.reverse_reverse]

theorem spellLetter_cases (cs : List Char) : spellLetter cs = cs ∨
    ∃ front, ∃ letter ∈ ['Z', 'z'], cs = front ++ [letter] ∧
      spellLetter cs = front ++ "+00:00".toList := by
  have spelled {letter : Char} {front : List Char} (h : cs.reverse = letter :: front) :
      cs = front.reverse ++ [letter] := by
    rw [← List.reverse_reverse cs, h, List.reverse_cons]
  unfold spellLetter
  split
  · rename_i front reversed
    exact Or.inr ⟨front.reverse, 'Z', by simp, spelled reversed, rfl⟩
  · rename_i front reversed
    exact Or.inr ⟨front.reverse, 'z', by simp, spelled reversed, rfl⟩
  · exact Or.inl rfl

/-- The date and the time of a divided layout, down to the minute. -/
def dividedMinute (blank : Bool) : Scan (Date × Nat × Nat) := fun cs => do
  let (year, cs) ← signedYear cs
  let ((), cs) ← char '-' cs
  let (month, cs) ← short cs
  let ((), cs) ← char '-' cs
  let (day, cs) ← short cs
  let ((), cs) ← divider blank cs
  let (hour, cs) ← short cs
  let ((), cs) ← char ':' cs
  let (minute, cs) ← short cs
  some ((⟨year, month, day⟩, hour, minute), cs)

/-- The second of a divided layout and its nanoseconds. -/
def secondPart (seconds : Bool) : Scan (Nat × Nat) := fun cs =>
  if seconds then dividedSecond cs else some ((0, 0), cs)

/-- The offset of a divided layout. -/
def offsetPart (present : Bool) : Scan (Option Int) := fun cs =>
  if present then (offset looseOffset (blanks cs)).map fun found => (some found.1, found.2)
  else some (none, cs)

/-- A divided layout part by part. -/
theorem dividedReading_eq (l : DividedLayout) (cs : List Char) :
    dividedReading l cs =
      (dividedMinute l.blank cs).bind fun front =>
        (secondPart l.seconds front.2).bind fun second =>
          (offsetPart l.offset second.2).map fun offset =>
            (⟨front.1.1, front.1.2.1, front.1.2.2, second.1.1, second.1.2, offset.1⟩,
              offset.2) := by
  obtain ⟨blank, seconds, present⟩ := l
  cases seconds <;> cases present <;>
    simp [dividedReading, dividedMinute, secondPart, offsetPart, Option.bind_assoc,
      Option.map_eq_bind]

/-- What a layout scans off the front of a text. -/
def scan : Layout → Scan Reading
  | .internet => internetReading
  | .mail => mailReading
  | .divided l => fun cs => dividedReading l (if l.offset then spellLetter cs else cs)
  | .dateOnly => dateOnlyReading

/-- A layout reads a text that it scans to the end, if it says something real. -/
theorem read?_eq_some_iff {layout : Layout} {reading : Reading} :
    layout.read? cs = some reading ↔
      layout.scan cs = some (reading, []) ∧ reading.isReal = true := by
  have scanned : layout.read? cs = (layout.scan cs).bind fun found =>
      if found.2.isEmpty then found.1.real? else none := by
    cases layout <;> rfl
  rw [scanned, Option.bind_eq_some_iff]
  constructor
  · rintro ⟨⟨found, left⟩, scan, real⟩
    simp only [Option.ite_none_right_eq_some, List.isEmpty_iff, Reading.real?] at real
    obtain ⟨rfl, isReal, same⟩ := real
    cases same
    exact ⟨scan, isReal⟩
  · rintro ⟨scan, isReal⟩
    refine ⟨_, scan, ?_⟩
    simp only [List.isEmpty_nil, if_true, Reading.real?, isReal]

end Layout

namespace Instant

open Layout

/-- A valid instant comes from what some layout reads. -/
theorem exists_read?_of_isValid {text : String} {configured : UtcOffset}
    (valid : (parse text configured).isValid = true) :
    ∃ layout : Layout, ∃ reading, layout.read? (Text.trim text.toList) = some reading := by
  rw [parse] at valid
  cases first : Layout.all.findSome? fun layout =>
      layout.instant? configured (Text.trim text.toList) with
  | none =>
    rw [first] at valid
    cases valid
  | some instant =>
    obtain ⟨layout, _, decided⟩ := List.exists_of_findSome?_eq_some first
    refine ⟨layout, ?_⟩
    cases read : layout.read? (Text.trim text.toList) with
    | none =>
      rw [instant?, read] at decided
      cases decided
    | some reading => exact ⟨reading, rfl⟩

end Instant

end Sieve
