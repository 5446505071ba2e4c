import Sieve.Proofs.Decimal.Digits
import Sieve.Proofs.Json.Numeral

/-!
Numbers through JSON text. Every number is written as a numeral in proper form, so reading takes the
whole of what was written and nothing after it. What comes out is a matter of the number alone.
-/

namespace Sieve

open Json (Numeral)
open Json.Numeral (Digits)

namespace Decimal

theorem digits_digits (n : Nat) : Digits (digits n) :=
  ⟨digits_ne_nil n, fun _ => isDigit_of_mem_digits⟩

theorem digits_no_needless_zero (n : Nat) (c : Char) (cs : List Char) :
    digits n ≠ '0' :: c :: cs := by
  cases n with
  | zero => simp [digits_zero]
  | succ n => exact digits_head_ne_zero (Nat.succ_pos n) (c :: cs)

theorem isDigit_of_mem_zeros {k : Nat} {c : Char} (h : c ∈ List.replicate k '0') :
    c.isDigit = true := by
  rw [List.eq_of_mem_replicate h]
  rfl

/-- A fraction below one: a zero, a point, and digits after zeros. -/
theorem exists_plain_below_one {ds : List Char} (digits : Digits ds) {top : Int} (h : top < 0) :
    ∃ n : Numeral, n.Proper ∧ n.negative = false ∧ plain ds top = n.text := by
  refine ⟨⟨false, ['0'], some (List.replicate (-top - 1).toNat '0' ++ ds), none⟩, ?_, rfl, ?_⟩
  · constructor
    · exact ⟨List.cons_ne_nil _ _, by simp⟩
    · simp
    · intro part here
      cases here
      refine ⟨by simp [digits.1], fun c hc => ?_⟩
      rcases List.mem_append.mp hc with hc | hc
      · exact isDigit_of_mem_zeros hc
      · exact digits.2 c hc
    · simp
  · simp [plain, h, Numeral.text, Numeral.signText, Numeral.fractionText, Numeral.exponentText]

/-- Digits around a point, with zeros where they end early. -/
theorem exists_pointAfter {d : Char} {ds : List Char} (digits : Digits (d :: ds)) {whole : Nat}
    (no_needless_zero : d = '0' → whole = 0) :
    ∃ n : Numeral, n.Proper ∧ n.negative = false ∧ pointAfter (whole + 1) (d :: ds) = n.text := by
  refine ⟨⟨false, d :: (ds.take whole ++ List.replicate (whole - ds.length) '0'),
    some (if (ds.drop whole).isEmpty then ['0'] else ds.drop whole), none⟩, ?_, rfl, ?_⟩
  · constructor
    · refine ⟨List.cons_ne_nil _ _, fun c hc => ?_⟩
      rcases List.mem_cons.mp hc with rfl | hc
      · exact digits.2 c List.mem_cons_self
      rcases List.mem_append.mp hc with hc | hc
      · exact digits.2 c (List.mem_cons_of_mem d (List.mem_of_mem_take hc))
      · exact isDigit_of_mem_zeros hc
    · intro c cs h
      have none_left := no_needless_zero (List.cons.inj h).1
      simp [none_left] at h
    · intro part here
      cases here
      split
      · exact ⟨List.cons_ne_nil _ _, by simp⟩
      · rename_i some_left
        refine ⟨by simpa using some_left, fun c hc => ?_⟩
        exact digits.2 c (List.mem_cons_of_mem d (List.mem_of_mem_drop hc))
    · simp
  · simp [pointAfter, Numeral.text, Numeral.signText, Numeral.fractionText, Numeral.exponentText]

/-- One digit before the point and a power of ten. -/
theorem exists_withPower {ds : List Char} (digits : Digits ds) (top : Int) :
    ∃ n : Numeral, n.Proper ∧ n.negative = false ∧ withPower ds top = n.text := by
  obtain ⟨d, rest, rfl⟩ := List.exists_cons_of_ne_nil digits.1
  refine ⟨⟨false, [d], if rest = [] then none else some rest,
    some (decide (top < 0), Decimal.digits top.natAbs)⟩, ?_, rfl, ?_⟩
  · constructor
    · exact ⟨List.cons_ne_nil _ _, by simpa using digits.2 d List.mem_cons_self⟩
    · simp
    · intro ds hds
      split at hds
      · cases hds
      · rename_i some_left
        cases hds
        exact ⟨some_left, fun c hc => digits.2 c (List.mem_cons_of_mem d hc)⟩
    · intro part here
      cases here
      exact digits_digits _
  · cases rest <;> simp [withPower, Numeral.text, Numeral.signText, Numeral.fractionText,
      Numeral.exponentText]

/-- A decimal is written in proper form, unless it is a zero with a power of ten. -/
theorem exists_write (style : Style) {d : Decimal} (h : d.coefficient = 0 → d.exponent = 0) :
    ∃ n : Numeral, n.Proper ∧ n.negative = false ∧ d.write style = n.text := by
  have all_digits := digits_digits d.coefficient
  simp only [write]
  split
  · by_cases below : ((digits d.coefficient).length : Int) - 1 + d.exponent < 0
    · exact exists_plain_below_one all_digits below
    · obtain ⟨c, cs, split⟩ := List.exists_cons_of_ne_nil all_digits.1
      rw [plain, if_neg below]
      rw [split] at all_digits ⊢
      refine exists_pointAfter all_digits fun zero => ?_
      subst zero
      have zero : d.coefficient = 0 := by
        by_contra positive
        exact digits_head_ne_zero (Nat.pos_of_ne_zero positive) cs split
      rw [zero, digits_zero] at split
      cases split
      simp [h zero]
  · exact exists_withPower all_digits _

end Decimal

namespace Json

/-- The numeral that a whole number is written as. -/
def Numeral.ofInt (i : Int) : Numeral := ⟨decide (i < 0), Decimal.digits i.natAbs, none, none⟩

theorem Numeral.proper_ofInt (i : Int) : (ofInt i).Proper :=
  ⟨Decimal.digits_digits _, Decimal.digits_no_needless_zero _, by simp [ofInt], by simp [ofInt]⟩

theorem Numeral.text_ofInt (i : Int) : (ofInt i).text = Decimal.wholeDigits i := by
  by_cases negative : i < 0 <;>
    simp [ofInt, Decimal.wholeDigits, negative, text, signText, fractionText, exponentText]

/-- Digits are gathered as long as what they come to stays below the limit. -/
theorem gather_eq {limit : Nat} {digits : List Char} {n : Nat}
    (below : Nat.ofDigitChars 10 digits n < limit) :
    gather limit n digits = (Nat.ofDigitChars 10 digits n, []) := by
  induction digits generalizing n with
  | nil => rfl
  | cons c cs ih =>
    have value : Nat.ofDigitChars 10 (c :: cs) n =
        Nat.ofDigitChars 10 cs (n * 10 + (c.toNat - 48)) := by
      rw [Nat.ofDigitChars_cons, Nat.mul_comm]
      rfl
    rw [value] at below ⊢
    have grows : n * 10 + (c.toNat - 48) ≤
        Nat.ofDigitChars 10 cs (n * 10 + (c.toNat - 48)) := by
      rw [Nat.ofDigitChars_eq_ofDigitChars_zero]
      exact Nat.le_trans (Nat.le_mul_of_pos_left _ (Nat.pow_pos (by decide)))
        (Nat.le_add_right _ _)
    rw [gather, if_pos (Nat.lt_of_le_of_lt grows below)]
    exact ih below

/-- A whole number of sixty-four bits comes back from its digits as it was. -/
theorem Numeral.outcome_ofInt {i : Int} (above : -9223372036854775808 ≤ i)
    (below : i < 18446744073709551616) : (ofInt i).outcome = .number (.whole i above below) := by
  have value : Nat.ofDigitChars 10 (Decimal.digits i.natAbs) 0 = i.natAbs :=
    Nat.ofDigitChars_ten_toDigits
  have fits : Nat.ofDigitChars 10 (Decimal.digits i.natAbs) 0 < significandLimit := by
    have limit : significandLimit = 18446744073709551616 := rfl
    omega
  have gathered := gather_eq fits
  rw [value] at gathered
  have whole : (ofInt i).outcome = ofWhole (decide (i < 0)) i.natAbs := by
    unfold outcome
    simp only [ofInt, gathered]
    rfl
  rw [whole]
  by_cases negative : i < 0
  · have magnitude : -(i.natAbs : Int) = i := by omega
    rw [decide_eq_true negative, ofWhole, if_pos rfl, dif_pos ⟨by omega, by omega⟩]
    simp only [magnitude]
  · have magnitude : (i.natAbs : Int) = i := by omega
    rw [decide_eq_false negative, ofWhole, if_neg Bool.false_ne_true, dif_pos (by omega)]
    simp only [magnitude]

/-- Every number is written in proper form. -/
theorem Number.exists_write (n : Number) : ∃ m : Numeral, m.Proper ∧ n.write = m.text := by
  have negate : ∀ m : Numeral, m.Proper → Numeral.Proper { m with negative := true } :=
    fun m proper => ⟨proper.whole, proper.no_needless_zero, proper.fraction, proper.exponent⟩
  have minus : ∀ m : Numeral, m.negative = false →
      '-' :: m.text = Numeral.text { m with negative := true } := by
    intro m unsigned
    simp [Numeral.text, Numeral.signText, unsigned]
  cases n with
  | whole i above below =>
    exact ⟨Numeral.ofInt i, Numeral.proper_ofInt i, (Numeral.text_ofInt i).symm⟩
  | binary x finite =>
    obtain ⟨m, proper, unsigned, text⟩ :=
      Decimal.exists_write numberStyle (d := x.shortest) Binary64.exponent_shortest
    simp only [write, writeBinary64, text]
    split
    · exact ⟨_, negate m proper, minus m unsigned⟩
    · exact ⟨m, proper, rfl⟩

end Json

end Sieve
