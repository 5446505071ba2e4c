import Mathlib.Logic.ExistsUnique
import Sieve.Proofs.Leaf
import Sieve.Proofs.Verdict

/-!
What date leaves make of two dates. The date of the field and the literal are taken for instants in
the same way, so a leaf and the converse leaf on the dates exchanged agree; and of two points in
time exactly one operation holds, while of anything else none does.
-/

namespace Sieve

namespace DateOperation

/-- The operation that holds of two instants when this one holds of them exchanged. -/
def converse : DateOperation → DateOperation
  | .eq => .eq
  | .after => .before
  | .before => .after

/-- How two points in time lie for the operation to hold of them. -/
def Relates : DateOperation → Int → Int → Prop
  | .eq, a, b => a = b
  | .after, a, b => b < a
  | .before, a, b => a < b

theorem holds_iff_relates (operation : DateOperation) (a b : Int) :
    operation.holds ⟨some a⟩ ⟨some b⟩ = true ↔ operation.Relates a b := by
  cases operation <;>
    simp [holds, Relates, Instant.sameAs, Instant.isAfter, Instant.isBefore, Instant.related]

theorem holds_converse (operation : DateOperation) (i j : Instant) :
    operation.converse.holds i j = operation.holds j i := by
  obtain ⟨a⟩ := i
  obtain ⟨b⟩ := j
  cases a <;> cases b
  case some.some a b =>
    rw [Bool.eq_iff_iff, holds_iff_relates, holds_iff_relates]
    cases operation <;> simp [Relates, converse, eq_comm]
  all_goals cases operation <;> rfl

/-- One of two points in time is the later, or they are the same. -/
theorem existsUnique_holds {i j : Instant} (valid : i.isValid = true) (valid' : j.isValid = true) :
    ∃! operation : DateOperation, operation.holds i j = true := by
  obtain ⟨a⟩ := i
  obtain ⟨b⟩ := j
  obtain ⟨a, rfl⟩ := Option.isSome_iff_exists.mp valid
  obtain ⟨b, rfl⟩ := Option.isSome_iff_exists.mp valid'
  simp only [holds_iff_relates]
  have only (operation : DateOperation) (here : operation.Relates a b) :
      ∀ other : DateOperation, other.Relates a b → other = operation := by
    intro other there
    cases operation <;> cases other <;> simp only [Relates] at here there <;> first | rfl | omega
  by_cases same : a = b
  · exact ⟨.eq, same, only .eq same⟩
  · by_cases earlier : a < b
    · exact ⟨.before, earlier, only .before earlier⟩
    · have later : b < a := by omega
      exact ⟨.after, later, only .after later⟩

end DateOperation

/-- The date as a record holds it. -/
def DateValue.toField : DateValue → FieldValue
  | .native t => .date t
  | .text s => .text s

namespace Leaf

variable {offset : UtcOffset} {r : Record} {name : String} {literal value : DateValue}

theorem run_date_of_held {c : Comparison DateOperation DateValue}
    (held : r.get? c.field = some value.toField) :
    (date c).run offset r = onDate offset c value := by
  cases value with
  | native t => exact run_date_of_native held
  | text s => exact run_date_of_text held

/-- There are two points in time to compare: the field holds a date, which is not empty text, and
both this date and the literal name one. -/
def Comparable (offset : UtcOffset) (r : Record) (name : String) (literal : DateValue) : Prop :=
  ∃ value : DateValue, r.get? name = some value.toField ∧ isEmptyDate value = false ∧
    (instantOf offset value).isValid = true ∧ (instantOf offset literal).isValid = true

/-- No layout reads the empty text. -/
theorem not_isValid_of_isEmptyDate (offset : UtcOffset) (empty : isEmptyDate value = true) :
    (instantOf offset value).isValid = false := by
  cases value with
  | native t => cases empty
  | text s =>
    rw [isEmptyDate, isEmptyText, String.isEmpty_iff] at empty
    subst empty
    rfl

/-- A date leaf compares the two instants, whichever they are: of an invalid one nothing holds. -/
theorem value_run_date_of_held (operation : DateOperation)
    (held : r.get? name = some value.toField) :
    ((date ⟨name, operation, literal⟩).run offset r).value =
      operation.holds (instantOf offset value) (instantOf offset literal) := by
  rw [run_date_of_held held, onDate]
  simp only
  split
  · rename_i empty
    have invalid := not_isValid_of_isEmptyDate offset empty
    rw [DateOperation.holds_invalid (by simp [invalid])]
    rfl
  · split
    · rename_i invalid
      rw [DateOperation.holds_invalid invalid]
    · rfl

/-- Nothing but a date is compared with a date. -/
theorem exists_held_of_value_run {operation : DateOperation}
    (h : ((date ⟨name, operation, literal⟩).run offset r).value = true) :
    ∃ value : DateValue, r.get? name = some value.toField := by
  rw [run_eq_onField] at h
  change ((date ⟨name, operation, literal⟩).onField offset (r.get? name)).value = true at h
  cases held : r.get? name with
  | none =>
    rw [held] at h
    cases h
  | some field =>
    rw [held] at h
    cases field with
    | bool b => cases h
    | number x => cases h
    | text s => exact ⟨.text s, rfl⟩
    | date t => exact ⟨.native t, rfl⟩

theorem existsUnique_of_comparable (h : Comparable offset r name literal) :
    ∃! operation, ((date ⟨name, operation, literal⟩).run offset r).value = true := by
  obtain ⟨value, held, _, valid, valid'⟩ := h
  simp only [value_run_date_of_held _ held]
  exact DateOperation.existsUnique_holds valid valid'

theorem comparable_of_value_run {operation : DateOperation}
    (h : ((date ⟨name, operation, literal⟩).run offset r).value = true) :
    Comparable offset r name literal := by
  obtain ⟨value, held⟩ := exists_held_of_value_run h
  rw [value_run_date_of_held operation held] at h
  have valid : (!(instantOf offset value).isValid || !(instantOf offset literal).isValid) =
      false := by
    rw [← Bool.not_eq_true]
    intro invalid
    rw [DateOperation.holds_invalid invalid] at h
    cases h
  simp only [Bool.or_eq_false_iff, Bool.not_eq_false'] at valid
  refine ⟨value, held, ?_, valid⟩
  rw [← Bool.not_eq_true]
  intro empty
  rw [not_isValid_of_isEmptyDate offset empty] at valid
  cases valid.1

end Leaf

namespace Filter

variable {o : Options} {r : Record}

theorem accepts_date_iff {name : String} {operation : DateOperation} {literal value : DateValue}
    (held : r.get? name = some value.toField) :
    (Filter.date name operation literal).accepts o r = true ↔ o.maxDepth ≠ some 0 ∧
      operation.holds (Leaf.instantOf o.naiveOffset value)
        (Leaf.instantOf o.naiveOffset literal) = true := by
  rw [Filter.date, accepts_leaf, Leaf.value_run_date_of_held operation held]

/-- **Date leaves partition.** Where a field and a literal are two points in time, exactly one of the
three operations matches, under any options whose depth budget lets the leaf be looked at; in every
other case none does. And a leaf matches exactly if the converse leaf does with field and literal
exchanged. -/
theorem date_leaves_partition (r : Record) (name : String) (literal : DateValue) (o : Options) :
    (o.maxDepth ≠ some 0 → Leaf.Comparable o.naiveOffset r name literal →
      ∃! operation, (Filter.date name operation literal).accepts o r = true) ∧
    (¬Leaf.Comparable o.naiveOffset r name literal →
      ∀ operation, (Filter.date name operation literal).accepts o r = false) ∧
    (o.maxDepth = some 0 →
      ∀ operation, (Filter.date name operation literal).accepts o r = false) ∧
    ∀ (a b : DateValue) (s t : Record) (field other : String) (operation : DateOperation),
      s.get? field = some a.toField → t.get? other = some b.toField →
      (Filter.date field operation b).accepts o s =
        (Filter.date other operation.converse a).accepts o t := by
  refine ⟨?_, ?_, ?_, ?_⟩
  · intro budget comparable
    simp only [Filter.date, accepts_leaf, budget, ne_eq, not_false_eq_true, true_and]
    exact Leaf.existsUnique_of_comparable comparable
  · intro none_to_compare operation
    rw [← Bool.not_eq_true, Filter.date, accepts_leaf]
    exact fun ⟨_, holds⟩ => none_to_compare (Leaf.comparable_of_value_run holds)
  · intro nothing operation
    rw [← Bool.not_eq_true, Filter.date, accepts_leaf]
    exact fun ⟨budget, _⟩ => budget nothing
  · intro a b s t field other operation held held'
    rw [Bool.eq_iff_iff, accepts_date_iff held, accepts_date_iff held', operation.holds_converse]

/-- Less than a second into the year. -/
def startOf2024 : Timestamp := ⟨1704067200, 400000000, by decide, by decide, by decide⟩

/-- Half past eleven in the evening an hour west of Greenwich is already 2024; and text that names
no point in time is not even equal to itself. -/
theorem text_after_native_and_unequal_to_itself :
    ((Options.default.maxDepth ≠ some 0 ∧
        Leaf.Comparable Options.default.naiveOffset
          (Record.empty.insert "d" (.text "2023-12-31T23:30:00-01:00")) "d" (.native startOf2024)) ∧
      ∃! operation, (Filter.date "d" operation (.native startOf2024)).accepts .default
        (Record.empty.insert "d" (.text "2023-12-31T23:30:00-01:00")) = true) ∧
    (¬Leaf.Comparable Options.default.naiveOffset (Record.empty.insert "d" (.text "soon")) "d"
        (.text "soon") ∧
      ∀ operation, (Filter.date "d" operation (.text "soon")).accepts .default
        (Record.empty.insert "d" (.text "soon")) = false) ∧
    (Filter.date "d" .after (.native startOf2024)).accepts .default
        (Record.empty.insert "d" (.text "2023-12-31T23:30:00-01:00")) =
      (Filter.date "e" .before (.text "2023-12-31T23:30:00-01:00")).accepts .default
        (Record.empty.insert "e" (.date startOf2024)) := by
  have held : (Record.empty.insert "d" (.text "2023-12-31T23:30:00-01:00")).get? "d" =
      some (DateValue.text "2023-12-31T23:30:00-01:00").toField := by
    rw [Record.get?_insert, if_pos rfl]
    rfl
  have held' : (Record.empty.insert "e" (.date startOf2024)).get? "e" =
      some (DateValue.native startOf2024).toField := by
    rw [Record.get?_insert, if_pos rfl]
    rfl
  have unbounded : Options.default.maxDepth ≠ some 0 := by decide
  have comparable : Leaf.Comparable Options.default.naiveOffset
      (Record.empty.insert "d" (.text "2023-12-31T23:30:00-01:00")) "d" (.native startOf2024) :=
    ⟨_, held, by decide, by decide +kernel, rfl⟩
  have nothing : ¬Leaf.Comparable Options.default.naiveOffset
      (Record.empty.insert "d" (.text "soon")) "d" (.text "soon") := by
    rintro ⟨_, _, _, _, named⟩
    exact absurd named (by decide +kernel)
  obtain ⟨partition, _, _, exchanged⟩ := date_leaves_partition
    (Record.empty.insert "d" (.text "2023-12-31T23:30:00-01:00")) "d" (.native startOf2024) .default
  obtain ⟨_, silent, _⟩ := date_leaves_partition
    (Record.empty.insert "d" (.text "soon")) "d" (.text "soon") .default
  exact ⟨⟨⟨unbounded, comparable⟩, partition unbounded comparable⟩, ⟨nothing, silent nothing⟩,
    exchanged _ _ _ _ "d" "e" .after held held'⟩

/-- Under a budget of nothing, not even one year is equal to itself. -/
theorem no_date_leaf_without_budget :
    Leaf.Comparable (Options.naiveOffset ⟨some 0, 0⟩) (Record.empty.insert "d" (.text "2024")) "d"
        (.text "2024") ∧
      ¬∃! operation, (Filter.date "d" operation (.text "2024")).accepts ⟨some 0, 0⟩
        (Record.empty.insert "d" (.text "2024")) = true := by
  have held : (Record.empty.insert "d" (.text "2024")).get? "d" =
      some (DateValue.text "2024").toField := by
    rw [Record.get?_insert, if_pos rfl]
    rfl
  refine ⟨⟨_, held, by decide, by decide +kernel, by decide +kernel⟩, ?_⟩
  rintro ⟨operation, matched, _⟩
  cases matched

end Filter

end Sieve
