import Sieve.Filter.Encode
import Sieve.Record.Text
import Sieve.Proofs.Leaf
import Sieve.Proofs.Timestamp
import Sieve.Proofs.Verdict

/-!
Native dates beside the texts that they are saved as. A date leaf sees of its literal only the
instant, and of its field only the instant and whether it is empty text; the text of a date in a
year of four digits agrees with the date in both, so it may stand for it on either side.
-/

namespace Sieve

/-- The text of a timestamp ends with a letter, so there is some. -/
theorem Timestamp.isEmptyText_render (t : Timestamp) : isEmptyText t.render = false := by
  have some_char : t.write ≠ [] := List.append_ne_nil_of_right_ne_nil _ (List.cons_ne_nil _ _)
  rw [isEmptyText, ← Bool.not_eq_true, String.isEmpty_iff]
  intro empty
  apply some_char
  rw [← String.toList_ofList (l := t.write), ← Timestamp.render, empty]
  rfl

namespace Leaf

variable {offset : UtcOffset} {d e : DateValue}

/-- No date leaf tells the two apart, be they its literal or what its field holds. -/
structure Interchangeable (offset : UtcOffset) (d e : DateValue) : Prop where
  instant : instantOf offset d = instantOf offset e
  empty : isEmptyDate d = isEmptyDate e

theorem interchangeable_own_text (t : Timestamp)
    (four_digits : 0 ≤ t.date.year ∧ t.date.year ≤ 9999) (offset : UtcOffset) :
    Interchangeable offset (.text t.render) (.native t) where
  instant := t.instant_of_render four_digits offset
  empty := t.isEmptyText_render

theorem Interchangeable.onDate (same : Interchangeable offset d e)
    (c : Comparison DateOperation DateValue) : Leaf.onDate offset c d = Leaf.onDate offset c e := by
  simp only [Leaf.onDate, same.instant, same.empty]

end Leaf

namespace Filter

/-- Leaves that run the same, each on its record, are filters that run the same at every level. -/
theorem run_leaf_congr {l m : Leaf} {o : Options} {r s : Record}
    (same : l.run o.naiveOffset r = m.run o.naiveOffset s) (level : Nat) :
    (leaf l).run o r level = (leaf m).run o s level := by
  cases reached : o.exceeded? level with
  | some budget => rw [run_exceeded reached, run_exceeded reached]
  | none => rw [run_leaf reached, run_leaf reached, same]

/-- **Native dates survive their own text.** A date in a year of four digits is saved as a text
that names the same instant under every configured offset, and a date leaf runs the same, in its
verdict as in what it logs, with that text in place of the date as its literal, in its field, or in
both. -/
theorem run_date_own_text (t : Timestamp) (four_digits : 0 ≤ t.date.year ∧ t.date.year ≤ 9999) :
    (DateValue.native t).toJson = .string t.render ∧
    (FieldValue.date t).toJson = .string t.render ∧
    (∀ configured, (Instant.parse t.render configured).isValid = true ∧
      Instant.parse t.render configured = .ofTimestamp t) ∧
    ∀ (name : String) (operation : DateOperation) (o : Options) (r : Record) (level : Nat),
      (Filter.date name operation (.text t.render)).run o r level =
        (Filter.date name operation (.native t)).run o r level ∧
      (∀ literal,
        (Filter.date name operation literal).run o (r.insert name (.text t.render)) level =
          (Filter.date name operation literal).run o (r.insert name (.date t)) level) ∧
      (Filter.date name operation (.text t.render)).run o (r.insert name (.text t.render)) level =
        (Filter.date name operation (.native t)).run o (r.insert name (.date t)) level := by
  refine ⟨rfl, rfl, fun configured => ?_, fun name operation o r level => ?_⟩
  · rw [t.instant_of_render four_digits configured]
    exact ⟨rfl, rfl⟩
  · have same := Leaf.interchangeable_own_text t four_digits o.naiveOffset
    -- The literal is replaced on any record and the field under any literal, so both are at once.
    have literal (r : Record) : (Filter.date name operation (.text t.render)).run o r level =
        (Filter.date name operation (.native t)).run o r level :=
      run_leaf_congr (Leaf.run_date_of_instant same.instant r) level
    have held (literal : DateValue) :
        (Filter.date name operation literal).run o (r.insert name (.text t.render)) level =
          (Filter.date name operation literal).run o (r.insert name (.date t)) level := by
      have text : (r.insert name (.text t.render)).get? name = some (.text t.render) := by
        rw [Record.get?_insert, if_pos rfl]
      have native : (r.insert name (.date t)).get? name = some (.date t) := by
        rw [Record.get?_insert, if_pos rfl]
      apply run_leaf_congr
      rw [Leaf.run_date_of_text text, Leaf.run_date_of_native native, same.onDate]
    exact ⟨literal r, held, (literal _).trans (held _)⟩

/-- The last nanosecond of a leap second before 1970. -/
def endOfLeapSecond : Timestamp := ⟨-1, 1999999999, by decide, by decide, by decide⟩

/-- A quarter of a leap second after the first second of an hour. -/
def leapSecondAtNoon : Timestamp := ⟨1686830400, 1250000000, by decide, by decide, by decide⟩

/-- The first date is saved with the second 60, which is a moment of 1970, and the other one with the
second 1. -/
theorem leap_second_by_own_text :
    ((0 ≤ endOfLeapSecond.date.year ∧ endOfLeapSecond.date.year ≤ 9999) ∧
      endOfLeapSecond.render = "1969-12-31T23:59:60.999999999Z" ∧
      Instant.parse "1969-12-31T23:59:60.999999999Z" .utc = ⟨some 999⟩ ∧
      (Filter.date "at" .eq (.text "1969-12-31T23:59:60.999999999Z")).run .default
          (Record.empty.insert "at" (.text "1969-12-31T23:59:60.999999999Z")) 1 =
        (Filter.date "at" .eq (.native endOfLeapSecond)).run .default
          (Record.empty.insert "at" (.date endOfLeapSecond)) 1 ∧
      ((Filter.date "at" .eq (.native endOfLeapSecond)).run .default
        (Record.empty.insert "at" (.date endOfLeapSecond)) 1).value = true) ∧
    ((0 ≤ leapSecondAtNoon.date.year ∧ leapSecondAtNoon.date.year ≤ 9999) ∧
      leapSecondAtNoon.render = "2023-06-15T12:00:01.250Z" ∧
      Instant.parse "2023-06-15T12:00:01.250Z" .utc = ⟨some 1686830401250⟩ ∧
      (Filter.date "at" .after (.text "2023-06-15T12:00:01.250Z")).run .default
          (Record.empty.insert "at" (.text "2023-06-15T12:00:01.251Z")) 1 =
        (Filter.date "at" .after (.native leapSecondAtNoon)).run .default
          (Record.empty.insert "at" (.text "2023-06-15T12:00:01.251Z")) 1) := by
  constructor
  · have year : 0 ≤ endOfLeapSecond.date.year ∧ endOfLeapSecond.date.year ≤ 9999 := by
      decide +kernel
    have shown : endOfLeapSecond.render = "1969-12-31T23:59:60.999999999Z" := by decide +kernel
    obtain ⟨_, _, named, runs⟩ := run_date_own_text endOfLeapSecond year
    obtain ⟨_, _, both⟩ := runs "at" .eq .default .empty 1
    have moment := (named .utc).2
    rw [shown] at moment both
    exact ⟨year, shown, moment, both, by decide +kernel⟩
  · have year : 0 ≤ leapSecondAtNoon.date.year ∧ leapSecondAtNoon.date.year ≤ 9999 := by
      decide +kernel
    have shown : leapSecondAtNoon.render = "2023-06-15T12:00:01.250Z" := by decide +kernel
    obtain ⟨_, _, named, runs⟩ := run_date_own_text leapSecondAtNoon year
    have literal := (runs "at" .after .default
      (Record.empty.insert "at" (.text "2023-06-15T12:00:01.251Z")) 1).1
    have moment := (named .utc).2
    rw [shown] at moment literal
    exact ⟨year, shown, moment, literal⟩

end Filter

end Sieve
