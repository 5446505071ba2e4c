import Mathlib.Data.Set.Card
import Sieve.Proofs.Assoc
import Sieve.Record.Basic

/-!
Records by what they hold: which values count as the same and which as none, records with some of
their fields taken away, and records that hold at least what another one does.
-/

namespace Sieve

deriving instance DecidableEq for FieldValue
deriving instance DecidableEq for Record

namespace Binary64

/-- Only the two zeros have no magnitude. -/
theorem isZero_iff {x : Binary64} : x.isZero = true ↔ x = zero ∨ x = zero.neg := by
  have bits : x.isZero = true ↔ x.bits.toNat = 0 ∨ x.bits.toNat = signBit := by
    have := x.bits.toNat_lt
    simp only [isZero, magnitude, signBit, beq_iff_eq]
    omega
  have zero_bits : zero.bits.toNat = 0 := rfl
  have neg_bits : zero.neg.bits.toNat = signBit := rfl
  rw [bits, ← zero_bits, ← neg_bits, UInt64.toNat_inj, UInt64.toNat_inj, Binary64.mk.injEq,
    Binary64.mk.injEq]

theorem same_iff {x y : Binary64} :
    x.same y = true ↔ x.isNaN = false ∧ y.isNaN = false ∧ x.rank = y.rank := by
  simp only [same, Bool.and_eq_true, Bool.not_eq_true', beq_iff_eq, and_assoc]

theorem isZero_eq_of_rank {x y : Binary64} (h : x.rank = y.rank) : x.isZero = y.isZero := by
  rw [Bool.eq_iff_iff]
  simp only [isZero, beq_iff_eq]
  simp only [rank] at h
  split at h <;> split at h <;> omega

end Binary64

namespace FieldValue

/-- The same value or an equal one. The zeros equal each other; a not-a-number is the same as itself
although it equals nothing. -/
def Alike (v w : FieldValue) : Prop := v = w ∨ v.same w = true

theorem Alike.refl (v : FieldValue) : v.Alike v := Or.inl rfl

/-- Only numbers equal a value that is not the same. -/
theorem Alike.cases {v w : FieldValue} (h : v.Alike w) :
    v = w ∨ ∃ x y, v = .number x ∧ w = .number y ∧ x.same y = true := by
  rcases h with equal | same
  · exact Or.inl equal
  · cases v <;> cases w
    case number.number x y => exact Or.inr ⟨x, y, rfl, rfl, same⟩
    case bool.bool a b => exact Or.inl (congrArg bool (beq_iff_eq.mp same))
    case text.text s t => exact Or.inl (congrArg text (beq_iff_eq.mp same))
    case date.date s t => exact Or.inl (congrArg date (of_decide_eq_true same))
    all_goals cases same

/-- Empty text, a zero of either sign and not-a-number are values that count as none. -/
def isFalsy : FieldValue → Bool
  | .text s => s == ""
  | .number x => x == .zero || x == Binary64.zero.neg || x.isNaN
  | .bool _ => false
  | .date _ => false

theorem isFalsy_text (s : String) : (text s).isFalsy = isEmptyText s := by
  rw [isFalsy, isEmptyText, Bool.eq_iff_iff, beq_iff_eq, String.isEmpty_iff]

theorem isFalsy_number (x : Binary64) : (number x).isFalsy = isZeroOrNaN x := by
  rw [isFalsy, isZeroOrNaN]
  congr 1
  rw [Bool.eq_iff_iff, Bool.or_eq_true, beq_iff_eq, beq_iff_eq, Binary64.isZero_iff]

end FieldValue

namespace Record

/-- The record without the fields that a test picks out by their names and values. -/
def without (r : Record) (gone : String → FieldValue → Bool) : Record :=
  ⟨r.fields.filter fun entry => !gone entry.1 entry.2, List.Pairwise.filter _ r.sorted⟩

theorem get?_without (r : Record) (gone : String → FieldValue → Bool) (name : String) :
    (r.without gone).get? name = (r.get? name).filter fun value => !gone name value :=
  Assoc.lookup_filter r.sorted _ name

theorem get?_insert (r : Record) (name other : String) (value : FieldValue) :
    (r.insert name value).get? other = if other = name then some value else r.get? other :=
  Assoc.lookup_insert name other value r.fields

/-- A record is what it holds. -/
theorem eq_of_get?_eq {r s : Record} (same : ∀ name, r.get? name = s.get? name) : r = s := by
  obtain ⟨fields, sorted⟩ := r
  obtain ⟨fields', sorted'⟩ := s
  have equal : fields = fields' := Assoc.eq_of_lookup_eq sorted sorted' same
  subst equal
  rfl

/-- The size of a record is the number of its names. -/
theorem size_eq_ncard (r : Record) : r.size = {name | ∃ value, r.get? name = some value}.ncard := by
  have names : {name | ∃ value, r.get? name = some value} =
      ((r.fields.map (·.1)).toFinset : Set String) := by
    ext name
    rw [List.coe_toFinset, Set.mem_ofPred_eq, Set.mem_ofPred_eq, Assoc.mem_names_iff,
      Option.isSome_iff_exists]
    rfl
  rw [names, Set.ncard_coe_finset, List.toFinset_card_of_nodup (Assoc.nodup_names r.sorted),
    List.length_map]
  rfl

/-- Every field of one record is a field of the other, with the same value or an equal one. -/
def Within (r s : Record) : Prop :=
  ∀ name value, r.get? name = some value → ∃ held, s.get? name = some held ∧ value.Alike held

theorem without_within (r : Record) (gone : String → FieldValue → Bool) :
    (r.without gone).Within r := by
  intro name value held
  rw [get?_without, Option.filter_eq_some_iff] at held
  exact ⟨value, held.1, .refl value⟩

end Record

end Sieve
