import Sieve.Evaluate
import Sieve.Proofs.Record.Fields

/-!
Leaves. A leaf reads a single field, so its run is a table: the kind of the leaf against what the
field holds. Everything said of leaves is read off that table: which values no leaf tells apart,
which ones no leaf holds of, and what a leaf can log.
-/

namespace Sieve

/-- The operations see no more of a number than its rank and whether it is one. -/
theorem NumberOperation.holds_congr {x y v w : Binary64} (nan : x.isNaN = y.isNaN)
    (rank : x.rank = y.rank) (nan' : v.isNaN = w.isNaN) (rank' : v.rank = w.rank)
    (operation : NumberOperation) : operation.holds x v = operation.holds y w := by
  cases operation <;>
    simp only [holds, Binary64.same, Binary64.lt, Binary64.le, nan, rank, nan', rank']

theorem DateOperation.holds_invalid {i j : Instant} (h : (!i.isValid || !j.isValid) = true)
    (operation : DateOperation) : operation.holds i j = false := by
  obtain ⟨a⟩ := i
  obtain ⟨b⟩ := j
  cases a <;> cases b
  case some.some => cases h
  all_goals cases operation <;> rfl

namespace Leaf

variable {offset : UtcOffset} {r s : Record}

/-- A date leaf on the date that its field holds. -/
def onDate (offset : UtcOffset) (c : Comparison DateOperation DateValue) (value : DateValue) :
    Logged Bool :=
  let instant := instantOf offset value
  let literal := instantOf offset c.literal
  if isEmptyDate value then pure false
  else if !instant.isValid || !literal.isValid then
    ⟨false, [.invalidInstant c.field instant.isValid literal.isValid]⟩
  else pure (c.operation.holds instant literal)

/-- A leaf on what its field holds. -/
def onField (offset : UtcOffset) (l : Leaf) : Option FieldValue → Logged Bool
  | none => pure false
  | some value =>
    match l, value with
    | .string c, .text s => pure (!isEmptyText s && c.operation.holds s c.literal)
    | .number c, .number x => pure (!isZeroOrNaN x && c.operation.holds x c.literal)
    | .boolean c, .bool b => pure (c.operation.holds b c.literal)
    | .date c, .date t => onDate offset c (.native t)
    | .date c, .text s => onDate offset c (.text s)
    | l, other => ⟨false, [.kindMismatch l.field l.kind other.kind]⟩

theorem runDate_present {c : Comparison DateOperation DateValue} {value : DateValue}
    (h : r.date c.field = .present value) : runDate offset c r = onDate offset c value := by
  rw [runDate, h]
  change (if isEmptyDate value then _ else _) = _
  rw [onDate]
  cases isEmptyDate value with
  | true => rfl
  | false =>
    simp only [Bool.false_eq_true, ↓reduceIte]
    cases invalid : !(instantOf offset value).isValid || !(instantOf offset c.literal).isValid with
    | false => rfl
    | true =>
      rw [DateOperation.holds_invalid invalid c.operation]
      rfl

/-- A date leaf sees of its literal only the instant. -/
theorem run_date_of_instant {name : String} {operation : DateOperation} {d e : DateValue}
    (same : instantOf offset d = instantOf offset e) (r : Record) :
    (date ⟨name, operation, d⟩).run offset r = (date ⟨name, operation, e⟩).run offset r := by
  simp only [run, runDate, same]

/-- A leaf reads the field that it names and no other. -/
theorem run_eq_onField (l : Leaf) (offset : UtcOffset) (r : Record) :
    l.run offset r = l.onField offset (r.get? l.field) := by
  cases l with
  | string c =>
    rw [run, runString, Record.text, field]
    cases r.get? c.field with
    | none => rfl
    | some value => cases value <;> rfl
  | number c =>
    rw [run, runNumber, Record.number, field]
    cases r.get? c.field with
    | none => rfl
    | some value => cases value <;> rfl
  | boolean c =>
    rw [run, runBoolean, Record.bool, field]
    cases r.get? c.field with
    | none => rfl
    | some value => cases value <;> rfl
  | date c =>
    rw [run, field]
    cases held : r.get? c.field with
    | none => rw [runDate, Record.date, held]; rfl
    | some value =>
      cases value with
      | bool b => rw [runDate, Record.date, held]; rfl
      | number x => rw [runDate, Record.date, held]; rfl
      | text s => exact runDate_present (by rw [Record.date, held])
      | date t => exact runDate_present (by rw [Record.date, held])

theorem run_date_of_native {c : Comparison DateOperation DateValue} {t : Timestamp}
    (held : r.get? c.field = some (.date t)) :
    (date c).run offset r = onDate offset c (.native t) := by
  rw [run_eq_onField, field, held]
  rfl

theorem run_date_of_text {c : Comparison DateOperation DateValue} {s : String}
    (held : r.get? c.field = some (.text s)) :
    (date c).run offset r = onDate offset c (.text s) := by
  rw [run_eq_onField, field, held]
  rfl

theorem onDate_cases (c : Comparison DateOperation DateValue) (value : DateValue) :
    (onDate offset c value).events = [] ∨ ∃ fieldValid literalValid,
      onDate offset c value = ⟨false, [.invalidInstant c.field fieldValid literalValid]⟩ := by
  rw [onDate]
  split
  · exact Or.inl rfl
  · split
    · exact Or.inr ⟨_, _, rfl⟩
    · exact Or.inl rfl

/-- A leaf logs nothing, or one event of its own field, and then it does not hold. -/
theorem run_cases (l : Leaf) (offset : UtcOffset) (r : Record) :
    (l.run offset r).events = [] ∨
    (∃ actual, l.run offset r = ⟨false, [.kindMismatch l.field l.kind actual]⟩) ∨
    ∃ fieldValid literalValid,
      l.run offset r = ⟨false, [.invalidInstant l.field fieldValid literalValid]⟩ := by
  rw [run_eq_onField]
  cases r.get? l.field with
  | none => exact Or.inl rfl
  | some value =>
    cases l <;> cases value
    case string.text => exact Or.inl rfl
    case number.number => exact Or.inl rfl
    case boolean.bool => exact Or.inl rfl
    case date.date c t => exact (onDate_cases c (.native t)).imp_right Or.inr
    case date.text c s => exact (onDate_cases c (.text s)).imp_right Or.inr
    all_goals exact Or.inr (Or.inl ⟨_, rfl⟩)

theorem mem_events_run {l : Leaf} {event : Event} (h : event ∈ (l.run offset r).events) :
    (∃ actual, event = .kindMismatch l.field l.kind actual) ∨
    ∃ fieldValid literalValid, event = .invalidInstant l.field fieldValid literalValid := by
  rcases l.run_cases offset r with silent | ⟨actual, logged⟩ | ⟨fieldValid, literalValid, logged⟩
  · rw [silent] at h
    cases h
  · rw [logged] at h
    exact Or.inl ⟨actual, List.mem_singleton.mp h⟩
  · rw [logged] at h
    exact Or.inr ⟨fieldValid, literalValid, List.mem_singleton.mp h⟩

/-- Equal numbers are the same to every leaf. -/
theorem onField_number_of_same (l : Leaf) {x y : Binary64} (h : x.same y = true) :
    l.onField offset (some (.number x)) = l.onField offset (some (.number y)) := by
  cases l with
  | string c => rfl
  | boolean c => rfl
  | date c => rfl
  | number c =>
    obtain ⟨x_number, y_number, rank⟩ := Binary64.same_iff.mp h
    have nan : x.isNaN = y.isNaN := x_number.trans y_number.symm
    have zero := Binary64.isZero_eq_of_rank rank
    have holds := NumberOperation.holds_congr nan rank rfl (rfl : c.literal.rank = _) c.operation
    simp only [onField, isZeroOrNaN, zero, nan, holds]

theorem onField_of_alike (l : Leaf) {v w : FieldValue} (h : v.Alike w) :
    l.onField offset (some v) = l.onField offset (some w) := by
  rcases h.cases with rfl | ⟨x, y, rfl, rfl, same⟩
  · rfl
  · exact l.onField_number_of_same same

/-- Records that hold alike values under the field of a leaf are the same to it. -/
theorem run_of_alike {l : Leaf}
    (h : Option.Rel FieldValue.Alike (r.get? l.field) (s.get? l.field)) :
    l.run offset r = l.run offset s := by
  rw [run_eq_onField, run_eq_onField]
  generalize r.get? l.field = value?, s.get? l.field = other? at h
  cases h with
  | none => rfl
  | some alike => exact l.onField_of_alike alike

/-- No leaf holds of a value that counts as none, whatever the kinds of both. -/
theorem value_onField_of_isFalsy (l : Leaf) {v : FieldValue} (falsy : v.isFalsy = true) :
    (l.onField offset (some v)).value = false := by
  cases v with
  | bool b => cases falsy
  | date t => cases falsy
  | text s =>
    rw [FieldValue.isFalsy_text] at falsy
    cases l with
    | string c => simp only [onField, falsy]; rfl
    | number c => rfl
    | boolean c => rfl
    | date c => simp only [onField, onDate, isEmptyDate, falsy]; rfl
  | number x =>
    rw [FieldValue.isFalsy_number] at falsy
    cases l with
    | string c => rfl
    | number c => simp only [onField, falsy]; rfl
    | boolean c => rfl
    | date c => rfl

/-- A leaf that holds has a value to hold of. -/
theorem exists_of_value_run {l : Leaf} (h : (l.run offset r).value = true) :
    ∃ value, r.get? l.field = some value ∧ value.isFalsy = false := by
  rw [run_eq_onField] at h
  cases held : r.get? l.field with
  | none => rw [held] at h; cases h
  | some value =>
    refine ⟨value, rfl, ?_⟩
    cases falsy : value.isFalsy with
    | false => rfl
    | true => rw [held, l.value_onField_of_isFalsy falsy] at h; cases h

end Leaf

end Sieve
