import Mathlib.Algebra.Group.Nat.Defs
import Mathlib.Logic.ExistsUnique
import Sieve.Proofs.Leaf
import Sieve.Proofs.Verdict

/-!
What number leaves make of two numbers. The bits of a number below its sign grow with the value that
they stand for, so comparing bits is comparing values: a leaf holds exactly if its field has a
number that counts as one, the literal is a number, and the two values lie as the operation says.
-/

namespace Sieve

namespace Binary64

variable {x y : Binary64}

theorem units_congr (h : x.magnitude = y.magnitude) : x.units = y.units := by
  unfold units significand place exponentField
  rw [h]

theorem units_lt (x : Binary64) : x.units < binadeSize * 2 ^ x.exponentField := by
  have fraction : x.magnitude % binadeSize < binadeSize := Nat.mod_lt _ (by decide)
  unfold units significand place
  by_cases subnormal : x.exponentField = 0
  · have whole : x.magnitude / binadeSize = 0 := subnormal
    have small : x.magnitude < binadeSize := by unfold binadeSize at *; omega
    simpa [subnormal] using small
  · obtain ⟨e, exponent⟩ := Nat.exists_eq_succ_of_ne_zero subnormal
    simp only [exponent, Nat.succ_ne_zero, if_false, Nat.succ_sub_one, Nat.pow_eq, pow_succ]
    calc (binadeSize + x.magnitude % binadeSize) * 2 ^ e
        < (binadeSize * 2) * 2 ^ e :=
          Nat.mul_lt_mul_of_pos_right (by omega) (Nat.two_pow_pos e)
      _ = binadeSize * (2 ^ e * 2) := by rw [Nat.mul_assoc, Nat.mul_comm 2]

theorem le_units (normal : x.exponentField ≠ 0) :
    binadeSize * 2 ^ (x.exponentField - 1) ≤ x.units := by
  unfold units significand place
  rw [if_neg normal]
  exact Nat.mul_le_mul_right _ (Nat.le_add_right _ _)

/-- Within a binade the fractions decide, and a later binade starts where the one before ends. -/
theorem units_lt_of_magnitude_lt (h : x.magnitude < y.magnitude) : x.units < y.units := by
  have later : x.exponentField ≤ y.exponentField := Nat.div_le_div_right (Nat.le_of_lt h)
  by_cases same : x.exponentField = y.exponentField
  · have fractions : x.magnitude % binadeSize < y.magnitude % binadeSize := by
      unfold exponentField binadeSize at *
      omega
    unfold units significand place
    rw [same]
    by_cases subnormal : y.exponentField = 0
    · simpa [subnormal] using h
    · rw [if_neg subnormal, if_neg subnormal]
      exact Nat.mul_lt_mul_of_pos_right (Nat.add_lt_add_left fractions _) (Nat.two_pow_pos _)
  · have normal : y.exponentField ≠ 0 := by omega
    have before : x.exponentField ≤ y.exponentField - 1 := by omega
    calc x.units
        < binadeSize * 2 ^ x.exponentField := x.units_lt
      _ ≤ binadeSize * 2 ^ (y.exponentField - 1) :=
          Nat.mul_le_mul_left _ (Nat.pow_le_pow_right (by decide) before)
      _ ≤ y.units := le_units normal

theorem units_lt_iff : x.units < y.units ↔ x.magnitude < y.magnitude := by
  constructor
  · intro less
    by_contra not_less
    rcases Nat.lt_or_eq_of_le (Nat.le_of_not_lt not_less) with more | same
    · exact Nat.lt_asymm less (units_lt_of_magnitude_lt more)
    · exact Nat.ne_of_lt less (units_congr same.symm)
  · exact units_lt_of_magnitude_lt

theorem units_eq_zero_iff : x.units = 0 ↔ x.magnitude = 0 := by
  have none : zero.units = 0 := by decide
  have bits : zero.magnitude = 0 := by decide
  have positive : zero.units < x.units ↔ zero.magnitude < x.magnitude := units_lt_iff
  omega

/-- The value of a number in units of the smallest one. The infinities are as large as the next
number after the largest one would be. -/
def signedUnits (x : Binary64) : Int := if x.isNegative then -x.units else x.units

/-- The rank orders numbers as their values do. -/
theorem rank_lt_iff : x.rank < y.rank ↔ x.signedUnits < y.signedUnits := by
  have less : x.units < y.units ↔ x.magnitude < y.magnitude := units_lt_iff
  have more : y.units < x.units ↔ y.magnitude < x.magnitude := units_lt_iff
  have zero : x.units = 0 ↔ x.magnitude = 0 := units_eq_zero_iff
  have zero' : y.units = 0 ↔ y.magnitude = 0 := units_eq_zero_iff
  unfold rank signedUnits
  cases x.isNegative <;> cases y.isNegative <;>
    simp only [Bool.false_eq_true, if_true, if_false] <;>
    omega

end Binary64

namespace NumberOperation

/-- How two values lie for the operation to hold of them. -/
def Relates : NumberOperation → Int → Int → Prop
  | .eq, a, b => a = b
  | .gt, a, b => b < a
  | .lt, a, b => a < b
  | .gte, a, b => b ≤ a
  | .lte, a, b => a ≤ b

/-- An operation holds of two numbers as it does of their values, and of nothing else. -/
theorem holds_iff_relates (operation : NumberOperation) (x y : Binary64) :
    operation.holds x y = true ↔
      x.isNaN = false ∧ y.isNaN = false ∧ operation.Relates x.signedUnits y.signedUnits := by
  have by_rank : operation.holds x y = true ↔
      x.isNaN = false ∧ y.isNaN = false ∧ operation.Relates x.rank y.rank := by
    cases operation <;>
      simp [holds, Relates, Binary64.same, Binary64.lt, Binary64.le, and_assoc, and_left_comm]
  have less : x.rank < y.rank ↔ x.signedUnits < y.signedUnits := Binary64.rank_lt_iff
  have more : y.rank < x.rank ↔ y.signedUnits < x.signedUnits := Binary64.rank_lt_iff
  have by_value : operation.Relates x.rank y.rank ↔
      operation.Relates x.signedUnits y.signedUnits := by
    cases operation <;> simp only [Relates] <;> omega
  rw [by_rank, by_value]

/-- One of two values is the larger, or they are the same. -/
theorem existsUnique_relates (a b : Int) :
    ∃! operation : NumberOperation, operation ∈ [.eq, .gt, .lt] ∧ operation.Relates a b := by
  have only (operation : NumberOperation) (plain : operation ∈ [.eq, .gt, .lt])
      (here : operation.Relates a b) : ∀ other : NumberOperation,
      other ∈ [.eq, .gt, .lt] ∧ other.Relates a b → other = operation := by
    rintro other ⟨plain', there⟩
    cases operation <;> cases other <;> simp [Relates] at plain plain' here there ⊢ <;> omega
  by_cases same : a = b
  · exact ⟨.eq, ⟨by decide, same⟩, only .eq (by decide) same⟩
  · by_cases less : a < b
    · exact ⟨.lt, ⟨by decide, less⟩, only .lt (by decide) less⟩
    · have more : b < a := by omega
      exact ⟨.gt, ⟨by decide, more⟩, only .gt (by decide) more⟩

end NumberOperation

namespace Leaf

variable {offset : UtcOffset} {r : Record} {name : String} {literal : Binary64}

/-- There are two numbers to compare: the field holds one that is neither a zero nor not-a-number,
and the literal is one. -/
def ComparableNumbers (r : Record) (name : String) (literal : Binary64) : Prop :=
  ∃ value, r.get? name = some (.number value) ∧ value.isZero = false ∧ value.isNaN = false ∧
    literal.isNaN = false

theorem value_run_number_iff {operation : NumberOperation} :
    ((number ⟨name, operation, literal⟩).run offset r).value = true ↔
      ∃ value, r.get? name = some (.number value) ∧ value.isZero = false ∧ value.isNaN = false ∧
        literal.isNaN = false ∧ operation.Relates value.signedUnits literal.signedUnits := by
  rw [run_eq_onField]
  change ((number ⟨name, operation, literal⟩).onField offset (r.get? name)).value = true ↔ _
  cases r.get? name with
  | none => simp [onField, pure]
  | some field =>
    cases field with
    | bool b => simp [onField]
    | text s => simp [onField]
    | date t => simp [onField]
    | number value =>
      simp [onField, pure, isZeroOrNaN, operation.holds_iff_relates, and_assoc]

end Leaf

namespace Filter

variable {o : Options} {r : Record} {name : String} {literal : Binary64}

theorem accepts_number_iff {operation : NumberOperation} :
    (Filter.number name operation literal).accepts o r = true ↔ o.maxDepth ≠ some 0 ∧
      ∃ value, r.get? name = some (.number value) ∧ value.isZero = false ∧ value.isNaN = false ∧
        literal.isNaN = false ∧ operation.Relates value.signedUnits literal.signedUnits := by
  rw [Filter.number, accepts_leaf, Leaf.value_run_number_iff]

/-- An operation gives way to another wherever the one relation implies the other. -/
theorem accepts_number_of_relates {operation other : NumberOperation} {literal' : Binary64}
    (number : literal.isNaN = false → literal'.isNaN = false)
    (implied : ∀ value : Binary64, operation.Relates value.signedUnits literal.signedUnits →
      other.Relates value.signedUnits literal'.signedUnits)
    (h : (Filter.number name operation literal).accepts o r = true) :
    (Filter.number name other literal').accepts o r = true := by
  obtain ⟨budget, value, held, nonzero, number_held, number_literal, relates⟩ :=
    accepts_number_iff.mp h
  exact accepts_number_iff.mpr
    ⟨budget, value, held, nonzero, number_held, number number_literal, implied value relates⟩

theorem accepts_number_iff_relates {operation : NumberOperation} {value : Binary64}
    (budget : o.maxDepth ≠ some 0) (held : r.get? name = some (.number value))
    (nonzero : value.isZero = false) (number : value.isNaN = false)
    (number' : literal.isNaN = false) :
    (Filter.number name operation literal).accepts o r = true ↔
      operation.Relates value.signedUnits literal.signedUnits := by
  rw [accepts_number_iff]
  constructor
  · rintro ⟨_, other, held', _, _, _, relates⟩
    rw [held] at held'
    cases held'
    exact relates
  · intro relates
    exact ⟨budget, value, held, nonzero, number, number', relates⟩

/-- An operation that is one of two others matches exactly if one of these does. -/
theorem accepts_number_iff_or {inclusive strict : NumberOperation}
    (either : ∀ a b, inclusive.Relates a b ↔ strict.Relates a b ∨ NumberOperation.eq.Relates a b) :
    (Filter.number name inclusive literal).accepts o r = true ↔
      (Filter.number name strict literal).accepts o r = true ∨
        (Filter.number name .eq literal).accepts o r = true := by
  simp only [accepts_number_iff, either, and_or_left, exists_or]

/-- **Number leaves partition, and they are monotone.** Where a field and a literal are two numbers
to compare, a leaf matches exactly if their values lie as its operation says, so exactly one of
`eq`, `gt` and `lt` does, under any options whose depth budget lets the leaf be looked at. In every
other case no operation matches. The two inclusive operations match exactly if the strict one or
`eq` does. And a literal that is less or equal keeps every match of `gt` and `gte`, and gives away
none of `lt` and `lte` to a larger one. -/
theorem number_leaves_partition (r : Record) (name : String) (literal : Binary64) (o : Options) :
    (o.maxDepth ≠ some 0 → ∀ value, r.get? name = some (.number value) →
      value.isZero = false → value.isNaN = false → literal.isNaN = false →
      (∃! operation, operation ∈ [.eq, .gt, .lt] ∧
        (Filter.number name operation literal).accepts o r = true) ∧
      ∀ operation, (Filter.number name operation literal).accepts o r = true ↔
        operation.Relates value.signedUnits literal.signedUnits) ∧
    ((Filter.number name .gte literal).accepts o r = true ↔
      (Filter.number name .gt literal).accepts o r = true ∨
        (Filter.number name .eq literal).accepts o r = true) ∧
    ((Filter.number name .lte literal).accepts o r = true ↔
      (Filter.number name .lt literal).accepts o r = true ∨
        (Filter.number name .eq literal).accepts o r = true) ∧
    (¬Leaf.ComparableNumbers r name literal →
      ∀ operation, (Filter.number name operation literal).accepts o r = false) ∧
    ∀ larger : Binary64, literal.le larger = true →
      ((Filter.number name .gt larger).accepts o r = true →
        (Filter.number name .gt literal).accepts o r = true) ∧
      ((Filter.number name .gte larger).accepts o r = true →
        (Filter.number name .gte literal).accepts o r = true) ∧
      ((Filter.number name .lt literal).accepts o r = true →
        (Filter.number name .lt larger).accepts o r = true) ∧
      ((Filter.number name .lte literal).accepts o r = true →
        (Filter.number name .lte larger).accepts o r = true) := by
  refine ⟨?_, ?_, ?_, ?_, ?_⟩
  · intro budget value held nonzero number number'
    have relates (operation : NumberOperation) :
        (Filter.number name operation literal).accepts o r = true ↔
          operation.Relates value.signedUnits literal.signedUnits :=
      accepts_number_iff_relates budget held nonzero number number'
    simp only [relates]
    exact ⟨NumberOperation.existsUnique_relates _ _, fun _ => trivial⟩
  · exact accepts_number_iff_or fun a b => by simp only [NumberOperation.Relates]; omega
  · exact accepts_number_iff_or fun a b => by simp only [NumberOperation.Relates]; omega
  · intro none_to_compare operation
    rw [← Bool.not_eq_true, accepts_number_iff]
    rintro ⟨_, value, held, nonzero, number, number', _⟩
    exact none_to_compare ⟨value, held, nonzero, number, number'⟩
  · intro larger ordered
    obtain ⟨number, number', less⟩ :=
      (NumberOperation.lte.holds_iff_relates literal larger).mp ordered
    refine ⟨accepts_number_of_relates (fun _ => number) ?_,
      accepts_number_of_relates (fun _ => number) ?_,
      accepts_number_of_relates (fun _ => number') ?_,
      accepts_number_of_relates (fun _ => number') ?_⟩
    · exact fun _ more => Int.lt_of_le_of_lt less more
    · exact fun _ more => Int.le_trans less more
    · exact fun _ below => Int.lt_of_lt_of_le below less
    · exact fun _ below => Int.le_trans below less

/-- An infinity lies above the negative zero and so above the positive one, which is no larger; and
a zero in a field is not even equal to zero. -/
theorem infinity_above_zeros_and_zero_unequal :
    ((Options.default.maxDepth ≠ some 0 ∧
        (Record.empty.insert "n" (.number (.infinity false))).get? "n" =
          some (.number (.infinity false))) ∧
      (∃! operation, operation ∈ [.eq, .gt, .lt] ∧
        (Filter.number "n" operation Binary64.zero.neg).accepts .default
          (Record.empty.insert "n" (.number (.infinity false))) = true) ∧
      ((Filter.number "n" .gt Binary64.zero.neg).accepts .default
          (Record.empty.insert "n" (.number (.infinity false))) = true ↔
        Binary64.zero.neg.signedUnits < (Binary64.infinity false).signedUnits)) ∧
    (Binary64.zero.le Binary64.zero.neg = true ∧
      ((Filter.number "n" .gt Binary64.zero.neg).accepts .default
          (Record.empty.insert "n" (.number (.infinity false))) = true →
        (Filter.number "n" .gt .zero).accepts .default
          (Record.empty.insert "n" (.number (.infinity false))) = true)) ∧
    (¬Leaf.ComparableNumbers (Record.empty.insert "n" (.number .zero)) "n" .zero ∧
      ∀ operation, (Filter.number "n" operation .zero).accepts .default
        (Record.empty.insert "n" (.number .zero)) = false) := by
  have held (x : Binary64) : (Record.empty.insert "n" (.number x)).get? "n" = some (.number x) := by
    rw [Record.get?_insert, if_pos rfl]
  have budget : Options.default.maxDepth ≠ some 0 := by decide
  have nothing : ¬Leaf.ComparableNumbers (Record.empty.insert "n" (.number .zero)) "n" .zero := by
    rintro ⟨value, held', nonzero, _⟩
    rw [held] at held'
    cases held'
    cases nonzero
  obtain ⟨comparable, _⟩ := number_leaves_partition
    (Record.empty.insert "n" (.number (.infinity false))) "n" Binary64.zero.neg .default
  obtain ⟨_, _, _, _, ordered⟩ := number_leaves_partition
    (Record.empty.insert "n" (.number (.infinity false))) "n" .zero .default
  obtain ⟨_, _, _, silent, _⟩ := number_leaves_partition
    (Record.empty.insert "n" (.number .zero)) "n" .zero .default
  obtain ⟨one, relates⟩ := comparable budget _ (held _) (by decide) (by decide) (by decide)
  obtain ⟨above, _⟩ := ordered Binary64.zero.neg (by decide)
  exact ⟨⟨⟨budget, held _⟩, one, relates .gt⟩, ⟨by decide, above⟩, nothing, silent nothing⟩

end Filter

end Sieve
