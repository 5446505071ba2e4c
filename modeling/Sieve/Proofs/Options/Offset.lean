import Sieve.Proofs.Selection

/-!
Options with an offset that was never checked. The check counts minutes, and the offset that dates
are taken at counts seconds in thirty-two bits; both stop short of a day at the same minute, and no
product that stays within a day is past those bits. So an offset that does not pass is no offset,
and a run sees of its options only the budget and the offset that dates are taken at.
-/

namespace Sieve

theorem UtcOffset.eq_of_seconds {a b : UtcOffset} (h : a.seconds = b.seconds) : a = b := by
  cases a
  cases b
  cases h
  rfl

namespace Options

/-- The product is exact, or it stays at the end that it would have passed. -/
theorem toInt_secondsIn (minutes : Int32) :
    (secondsIn minutes).toInt = max (-2147483648) (min (60 * minutes.toInt) 2147483647) := by
  have lowest : Int32.minValue.toInt = -2147483648 := Int32.toInt_minValue
  have highest : Int32.maxValue.toInt = 2147483647 := Int32.toInt_maxValue
  unfold secondsIn
  simp only [lowest, highest]
  split
  · rw [lowest]
    omega
  · split
    · rw [highest]
      omega
    · rw [Int32.toInt_ofInt_of_le (by omega) (by omega)]
      omega

variable {o : Options}

theorem validate_eq_ok_iff : o.validate = .ok () ↔
    -1439 ≤ o.naiveOffsetMinutes.toInt ∧ o.naiveOffsetMinutes.toInt ≤ 1439 := by
  have longest : longestOffset = 1439 := rfl
  unfold validate
  split
  · simp only [true_iff]
    omega
  · simp only [reduceCtorEq, false_iff]
    omega

/-- A day in seconds is past the same minutes, and the ends of the thirty-two bits lie further out.
-/
theorem seconds_naiveOffset (o : Options) : o.naiveOffset.seconds =
    if -1439 ≤ o.naiveOffsetMinutes.toInt ∧ o.naiveOffsetMinutes.toInt ≤ 1439 then
      60 * o.naiveOffsetMinutes.toInt
    else 0 := by
  have product := toInt_secondsIn o.naiveOffsetMinutes
  unfold naiveOffset UtcOffset.ofSeconds?
  split
  · rename_i short
    rw [if_pos (by omega)]
    change (secondsIn o.naiveOffsetMinutes).toInt = _
    omega
  · rename_i long
    rw [if_neg (by omega)]
    rfl

/-- The options with no offset in place of one that does not pass. -/
def checked (o : Options) : Options :=
  match o.validate with
  | .ok () => o
  | .error _ => { o with naiveOffsetMinutes := 0 }

theorem maxDepth_checked (o : Options) : o.checked.maxDepth = o.maxDepth := by
  unfold checked
  split <;> rfl

theorem naiveOffset_checked (o : Options) : o.checked.naiveOffset = o.naiveOffset := by
  unfold checked
  split
  · rfl
  · rename_i cause failed
    have outside : ¬(-1439 ≤ o.naiveOffsetMinutes.toInt ∧ o.naiveOffsetMinutes.toInt ≤ 1439) := by
      intro inside
      rw [validate_eq_ok_iff.mpr inside] at failed
      cases failed
    apply UtcOffset.eq_of_seconds
    rw [seconds_naiveOffset, seconds_naiveOffset, if_neg outside]
    rfl

/-- An offset is set if it passes the check, and nothing else is set. -/
theorem withNaiveOffset_eq (o : Options) (minutes : Int32) : o.withNaiveOffset minutes =
    if -1439 ≤ minutes.toInt ∧ minutes.toInt ≤ 1439 then
      .ok { o with naiveOffsetMinutes := minutes }
    else .error (.invalidOffset minutes) := by
  have longest : longestOffset = 1439 := rfl
  unfold withNaiveOffset validate
  by_cases short : -1439 ≤ minutes.toInt ∧ minutes.toInt ≤ 1439
  · simp only [if_pos short]
    rw [if_pos (by omega)]
    rfl
  · simp only [if_neg short]
    rw [if_neg (by omega)]
    rfl

end Options

namespace Filter

/-- Nothing of the options comes into a run but the budget and the offset that dates are taken at.
-/
theorem run_of_same_offset {o o' : Options} (limit : o.maxDepth = o'.maxDepth)
    (offset : o.naiveOffset = o'.naiveOffset) (f : Filter) (r : Record) (level : Nat) :
    f.run o r level = f.run o' r level := by
  apply f.run_of_leaves limit
  intro l _
  rw [offset]

theorem verdicts_of_same_runs {f : Filter} {o o' : Options}
    (same : ∀ r, f.run o r 1 = f.run o' r 1) (records : List Record) :
    f.verdicts o records = f.verdicts o' records := by
  induction records with
  | nil => rfl
  | cons r rest ih => rw [verdicts, verdicts, same r, ih]

/-- **An offset that was never checked.** The check passes the offsets of at most 1439 minutes
either way. Dates are taken at sixty times as many seconds, without loss, if the offset passes, and
at none if it does not; so a run, its verdict and its log, is the run under the options without that
offset, and so is what is chosen from any records. Setting an offset makes the same check and then
changes the offset only. -/
theorem unchecked_offset_is_none (o : Options) :
    (o.validate = .ok () ↔
      -1439 ≤ o.naiveOffsetMinutes.toInt ∧ o.naiveOffsetMinutes.toInt ≤ 1439) ∧
    o.naiveOffset.seconds =
      (if -1439 ≤ o.naiveOffsetMinutes.toInt ∧ o.naiveOffsetMinutes.toInt ≤ 1439 then
        60 * o.naiveOffsetMinutes.toInt
      else 0) ∧
    (∀ (f : Filter) (r : Record) (level : Nat), f.run o r level = f.run o.checked r level) ∧
    (∀ (f : Filter) (records : List Record),
      f.selectLogged o records = f.selectLogged o.checked records ∧
      f.keepLogged o records = f.keepLogged o.checked records) ∧
    ∀ minutes : Int32, o.withNaiveOffset minutes =
      if -1439 ≤ minutes.toInt ∧ minutes.toInt ≤ 1439 then
        .ok { o with naiveOffsetMinutes := minutes }
      else .error (.invalidOffset minutes) := by
  have runs (f : Filter) (r : Record) (level : Nat) : f.run o r level = f.run o.checked r level :=
    run_of_same_offset o.maxDepth_checked.symm o.naiveOffset_checked.symm f r level
  refine ⟨Options.validate_eq_ok_iff, o.seconds_naiveOffset, runs, fun f records => ?_,
    o.withNaiveOffset_eq⟩
  have verdicts : f.verdicts o records = f.verdicts o.checked records :=
    verdicts_of_same_runs (fun r => runs f r 1) records
  constructor
  · rw [selectLogged, selectLogged, verdicts]
  · rw [keepLogged, keepLogged, verdicts]

/-- The least number of thirty-two bits is no offset, and sixty times as many seconds would not fit
in them. -/
example : (Options.mk none Int32.minValue).naiveOffset = .utc := by decide

end Filter

end Sieve
