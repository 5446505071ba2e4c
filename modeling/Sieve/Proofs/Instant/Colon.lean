import Sieve.Proofs.Instant.Scan

/-!
Colons in texts. Every layout with a time in it takes a colon from the text, and a date that stands
alone has none. The colon in the offset that a last letter Z is spelled out as is never one that
parts hours from minutes, so the text without that offset has a colon too.
-/

namespace Sieve

namespace Scan

variable {cs rest : List Char}

/-- What stands between two places of a text has no plus sign in it. -/
def NoPlus (cs rest : List Char) : Prop := ∃ part, cs = part ++ rest ∧ '+' ∉ part

theorem NoPlus.trans {later : List Char} (h : NoPlus cs rest) (h' : NoPlus rest later) :
    NoPlus cs later := by
  obtain ⟨part, split, plain⟩ := h
  obtain ⟨part', split', plain'⟩ := h'
  refine ⟨part ++ part', ?_, ?_⟩
  · rw [split, split', List.append_assoc]
  · simp [plain, plain']

theorem blanks_noPlus (cs : List Char) : NoPlus cs (blanks cs) := by
  refine ⟨cs.takeWhile Text.isBlank, List.takeWhile_append_dropWhile.symm, ?_⟩
  intro plus
  exact absurd (List.mem_takeWhile_imp plus) (by decide)

theorem short_noPlus {n : Nat} (h : short cs = some (n, rest)) : NoPlus cs rest := by
  obtain ⟨ds, split, _, _, digits, _⟩ := number_eq_some h
  apply (blanks_noPlus cs).trans
  refine ⟨ds, split, ?_⟩
  intro plus
  exact absurd (digits '+' plus) (by decide)

end Scan

namespace Layout

open Scan

variable {cs rest : List Char} {reading : Reading}

/-- A date and a time have a colon between hours and minutes. -/
theorem colon_mem_of_dividedReading {l : DividedLayout}
    (h : dividedReading l cs = some (reading, rest)) : ':' ∈ cs := by
  rw [dividedReading_eq, Option.bind_eq_some_iff] at h
  obtain ⟨_, front, _⟩ := h
  simp only [dividedMinute, Option.bind_eq_bind, Option.bind_eq_some_iff] at front
  obtain ⟨⟨year, cs₁⟩, read₁, ⟨_, cs₂⟩, read₂, ⟨month, cs₃⟩, read₃, ⟨_, cs₄⟩, read₄, ⟨day, cs₅⟩,
    read₅, ⟨_, cs₆⟩, read₆, ⟨hour, cs₇⟩, read₇, ⟨_, cs₈⟩, colon, _⟩ := front
  have date : cs₅ <:+ cs :=
    (short_suffix read₅).trans <| (char_suffix read₄).trans <| (short_suffix read₃).trans <|
      (char_suffix read₂).trans (signedYear_suffix read₁)
  have time : cs₇ <:+ cs := (short_suffix read₇).trans <| (divider_suffix read₆).trans date
  exact time.subset (char_mem colon)

/-- The layout of internet protocols has a colon after the hours. -/
theorem colon_mem_of_internetReading
    (h : internetReading cs = some (reading, rest)) : ':' ∈ cs := by
  simp only [internetReading, Option.bind_eq_bind, Option.bind_eq_some_iff] at h
  obtain ⟨⟨year, cs₁⟩, read₁, ⟨_, cs₂⟩, read₂, ⟨month, cs₃⟩, read₃, ⟨_, cs₄⟩, read₄, ⟨day, cs₅⟩,
    read₅, ⟨_, cs₆⟩, read₆, ⟨hour, cs₇⟩, read₇, ⟨_, cs₈⟩, colon, _⟩ := h
  have date : cs₅ <:+ cs :=
    (number_suffix read₅).trans <| (char_suffix read₄).trans <| (number_suffix read₃).trans <|
      (char_suffix read₂).trans (number_suffix read₁)
  have time : cs₇ <:+ cs :=
    (number_suffix read₇).trans <| (internetDivider_suffix read₆).trans date
  exact time.subset (char_mem colon)

/-- So has the layout of mail headers, after any blanks. -/
theorem colon_mem_of_mailReading
    (h : mailReading cs = some (reading, rest)) : ':' ∈ cs := by
  simp only [mailReading, Option.bind_eq_bind, Option.bind_eq_some_iff] at h
  obtain ⟨⟨day?, cs₁⟩, read₁, ⟨day, cs₂⟩, read₂, ⟨_, cs₃⟩, read₃, ⟨month, cs₄⟩, read₄, ⟨_, cs₅⟩,
    read₅, ⟨year, cs₆⟩, read₆, ⟨_, cs₇⟩, read₇, ⟨hour, cs₈⟩, read₈, ⟨_, cs₉⟩, colon, _⟩ := h
  have day : cs₂ <:+ cs :=
    (number_suffix read₂).trans <| (blanks_suffix _).trans <| (mailWeekday_suffix read₁).trans
      (blanks_suffix cs)
  have year : cs₆ <:+ cs :=
    (mailYear_suffix read₆).trans <| (someBlanks_suffix read₅).trans <|
      (wordOf_suffix read₄).trans <| (someBlanks_suffix read₃).trans day
  have time : blanks cs₈ <:+ cs :=
    (blanks_suffix _).trans <| (number_suffix read₈).trans <| (someBlanks_suffix read₇).trans year
  exact time.subset (char_mem colon)

/-- A number that is all there is has no colon in it. -/
theorem colon_not_mem_of_fixed {width n : Nat} (h : fixed width cs = some (n, rest))
    (none_left : ':' ∉ rest) : ':' ∉ cs := by
  obtain ⟨ds, split, _, _, digits, _⟩ := number_eq_some h
  rw [split]
  intro mem
  rcases List.mem_append.mp mem with digit | left
  · exact absurd (digits ':' digit) (by decide)
  · exact none_left left

/-- A date that stands alone has digits and hyphens only. -/
theorem colon_not_mem_of_dateOnlyReading
    (h : dateOnlyReading cs = some (reading, [])) : ':' ∉ cs := by
  simp only [dateOnlyReading, Option.bind_eq_bind, Option.bind_eq_some_iff] at h
  obtain ⟨⟨year, cs₁⟩, read₁, h⟩ := h
  apply colon_not_mem_of_fixed read₁
  split at h
  · rename_i ended
    change cs₁ = [] at ended
    rw [ended]
    exact List.not_mem_nil
  · simp only [Option.bind_eq_some_iff] at h
    obtain ⟨⟨_, cs₂⟩, read₂, ⟨month, cs₃⟩, read₃, h⟩ := h
    have hyphen : cs₁ = '-' :: cs₂ := char_eq_some_iff.mp read₂
    rw [hyphen, List.mem_cons, or_iff_right (by decide)]
    apply colon_not_mem_of_fixed read₃
    split at h
    · rename_i ended
      change cs₃ = [] at ended
      rw [ended]
      exact List.not_mem_nil
    · simp only [Option.bind_eq_some_iff] at h
      obtain ⟨⟨_, cs₄⟩, read₄, ⟨day, cs₅⟩, read₅, made⟩ := h
      have hyphen : cs₃ = '-' :: cs₄ := char_eq_some_iff.mp read₄
      have ended : cs₅ = [] := (Prod.mk.inj (Option.some.inj made)).2
      rw [hyphen, List.mem_cons, or_iff_right (by decide)]
      exact colon_not_mem_of_fixed read₅ (ended ▸ List.not_mem_nil)

/-! ### The letter Z spelled out -/

theorem divider_noPlus {blank : Bool} {u : Unit} (h : divider blank cs = some (u, rest)) :
    NoPlus cs rest := by
  cases blank with
  | true =>
    cases h
    exact blanks_noPlus cs
  | false => exact ⟨['T'], char_eq_some_iff.mp h, by decide⟩

/-- Between the last hyphen of a date and the colon after the hours there is no plus sign. -/
theorem exists_hyphen_of_dividedReading {l : DividedLayout}
    (h : dividedReading l cs = some (reading, rest)) :
    ∃ before between after, cs = before ++ '-' :: (between ++ ':' :: after) ∧ '+' ∉ between := by
  rw [dividedReading_eq, Option.bind_eq_some_iff] at h
  obtain ⟨_, front, _⟩ := h
  simp only [dividedMinute, Option.bind_eq_bind, Option.bind_eq_some_iff] at front
  obtain ⟨⟨year, cs₁⟩, read₁, ⟨_, cs₂⟩, read₂, ⟨month, cs₃⟩, read₃, ⟨_, cs₄⟩, hyphen, ⟨day, cs₅⟩,
    read₅, ⟨_, cs₆⟩, read₆, ⟨hour, cs₇⟩, read₇, ⟨_, cs₈⟩, colon, _⟩ := front
  have date : cs₃ <:+ cs :=
    (short_suffix read₃).trans <| (char_suffix read₂).trans (signedYear_suffix read₁)
  have day : NoPlus cs₄ cs₇ := (short_noPlus read₅).trans <| (divider_noPlus read₆).trans
    (short_noPlus read₇)
  obtain ⟨before, split⟩ := date
  obtain ⟨between, split', plain⟩ := day
  have hyphen : cs₃ = '-' :: cs₄ := char_eq_some_iff.mp hyphen
  have colon : cs₇ = ':' :: cs₈ := char_eq_some_iff.mp colon
  refine ⟨before, between, cs₈, ?_, plain⟩
  rw [← split, hyphen, split', colon]

/-- Back from the end of the hours of an offset, the plus sign comes before any hyphen. -/
theorem plus_mem_of_append_eq {front before between : List Char}
    (h : front ++ "+00".toList = before ++ '-' :: between) : '+' ∈ between := by
  have backwards : '0' :: '0' :: '+' :: front.reverse =
      between.reverse ++ '-' :: before.reverse := by
    simpa using congrArg List.reverse h
  rw [← List.mem_reverse]
  generalize between.reverse = taken at backwards ⊢
  rcases taken with _ | ⟨x, _ | ⟨y, _ | ⟨z, more⟩⟩⟩
  · simp at backwards
  · simp at backwards
  · simp at backwards
  · simp only [List.cons_append, List.cons.injEq] at backwards
    obtain ⟨_, _, plus, _⟩ := backwards
    simp [← plus]

/-- The colon of the offset that a letter is spelled out as parts no hours from minutes. -/
theorem colon_mem_of_spellLetter {l : DividedLayout}
    (h : dividedReading l (spellLetter cs) = some (reading, rest)) : ':' ∈ cs := by
  rcases spellLetter_cases cs with same | ⟨front, letter, _, split, spelled⟩
  · rw [same] at h
    exact colon_mem_of_dividedReading h
  · by_contra no_colon
    have no_front : ':' ∉ front ++ "+00".toList := by
      intro colon
      rcases List.mem_append.mp colon with front | plain
      · exact no_colon (split ▸ List.mem_append_left _ front)
      · exact absurd plain (by decide)
    obtain ⟨before, between, after, found, plain⟩ := exists_hyphen_of_dividedReading h
    have apart : (front ++ "+00".toList) ++ ':' :: "00".toList =
        (before ++ '-' :: between) ++ ':' :: after := by
      rw [spelled] at found
      simpa using found
    have hours := ((List.append_cons_inj_of_notMem no_front (by decide)).mp apart).1
    exact plain (plus_mem_of_append_eq hours)

/-- Without a colon no layout but that of dates alone reads a text. -/
theorem eq_dateOnly_of_read? {layout : Layout} (no_colon : ':' ∉ cs)
    (h : layout.read? cs = some reading) : layout = .dateOnly := by
  have scanned := (read?_eq_some_iff.mp h).1
  cases layout with
  | internet => exact absurd (colon_mem_of_internetReading scanned) no_colon
  | mail => exact absurd (colon_mem_of_mailReading scanned) no_colon
  | divided l =>
    rw [scan] at scanned
    cases present : l.offset with
    | true =>
      simp only [present, if_true] at scanned
      exact absurd (colon_mem_of_spellLetter scanned) no_colon
    | false =>
      simp only [present, Bool.false_eq_true, if_false] at scanned
      exact absurd (colon_mem_of_dividedReading scanned) no_colon
  | dateOnly => rfl

end Layout

end Sieve
