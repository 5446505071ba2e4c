import Sieve.Proofs.DateComparison

/-!
Timestamps in chronological order, and what is left of it to the millisecond. A leap second counts
as milliseconds past a full second, which are those of the second after it too. So a timestamp in a
leap second can come to more milliseconds than a later one in the second directly after it, and a
date leaf then has the two the wrong way round; it has no other two so.
-/

namespace Sieve

namespace Timestamp

/-- By the second, and within it by the nanoseconds; so a leap second comes after the second that it
belongs to and before the next one. -/
instance : LE Timestamp where
  le a b := a.seconds < b.seconds ∨ a.seconds = b.seconds ∧ a.nanos ≤ b.nanos

theorem le_iff {a b : Timestamp} :
    a ≤ b ↔ a.seconds < b.seconds ∨ a.seconds = b.seconds ∧ a.nanos ≤ b.nanos := Iff.rfl

/-- The first is in a leap second, the second is in the second directly after that, and it is fewer
milliseconds into its second than the first is into the leap second. -/
def Overtakes (a b : Timestamp) : Prop :=
  1000000000 ≤ a.nanos ∧ b.seconds = a.seconds + 1 ∧
    b.nanos / 1000000 < (a.nanos - 1000000000) / 1000000

instance (a b : Timestamp) : Decidable (a.Overtakes b) :=
  inferInstanceAs (Decidable (1000000000 ≤ a.nanos ∧ b.seconds = a.seconds + 1 ∧
    b.nanos / 1000000 < (a.nanos - 1000000000) / 1000000))

/-- Two whole seconds are more than the nanoseconds of any second come to. -/
theorem millis_lt_iff_overtakes {a b : Timestamp} (h : a ≤ b) :
    b.millis < a.millis ↔ a.Overtakes b := by
  have short := a.nanos_lt
  rw [le_iff] at h
  unfold millis Overtakes
  by_cases same : a.seconds = b.seconds
  · have order : a.nanos / 1000000 ≤ b.nanos / 1000000 := Nat.div_le_div_right (by omega)
    omega
  · omega

end Timestamp

namespace Filter

/-- A date leaf sees of two native dates their milliseconds. -/
theorem accepts_native_iff {o : Options} {r : Record} {name : String} {t u : Timestamp}
    {operation : DateOperation} (held : r.get? name = some (.date t)) :
    (Filter.date name operation (.native u)).accepts o r = true ↔
      o.maxDepth ≠ some 0 ∧ operation.Relates t.millis u.millis := by
  have as_date : r.get? name = some (DateValue.native t).toField := held
  rw [accepts_date_iff as_date, ← operation.holds_iff_relates]
  rfl

/-- **Native dates keep their order, but for a leap second and the second after it.** Of two dates in
chronological order, the earlier does not match as after the later, nor the later as before the
earlier, unless it overtakes it out of a leap second; and then both do, if the leaf is looked at. -/
theorem order_kept_but_for_overtaking (a b : Timestamp) (h : a ≤ b) (name : String) (o : Options)
    (r : Record) :
    (r.get? name = some (.date a) →
      ((Filter.date name .after (.native b)).accepts o r = true ↔
        o.maxDepth ≠ some 0 ∧ a.Overtakes b)) ∧
    (r.get? name = some (.date b) →
      ((Filter.date name .before (.native a)).accepts o r = true ↔
        o.maxDepth ≠ some 0 ∧ a.Overtakes b)) := by
  rw [← Timestamp.millis_lt_iff_overtakes h]
  exact ⟨fun held => accepts_native_iff held, fun held => accepts_native_iff held⟩

/-- Three quarters into the leap second at the end of June 2012. -/
def endOfJune2012 : Timestamp := ⟨1341100799, 1750000000, by decide, by decide, by decide⟩

/-- A fifth of a second into July 2012. -/
def startOfJuly2012 : Timestamp := ⟨1341100800, 200000000, by decide, by decide, by decide⟩

/-- In a leap second after the first second of an afternoon. -/
def noonInJuly2012 : Timestamp := ⟨1341144000, 1600000000, by decide, by decide, by decide⟩

/-- A tenth of a second into the second after that. -/
def pastNoonInJuly2012 : Timestamp := ⟨1341144001, 100000000, by decide, by decide, by decide⟩

/-- Half a second later the month has caught up. A leap second inside a minute overtakes too. -/
theorem leap_second_after_July_but_not_for_long :
    (endOfJune2012 ≤ startOfJuly2012 ∧ endOfJune2012.Overtakes startOfJuly2012 ∧
      (Filter.date "d" .before (.native endOfJune2012)).accepts .default
        (Record.empty.insert "d" (.date startOfJuly2012)) = true) ∧
    (endOfJune2012 ≤ ⟨1341100800, 750000000, by decide, by decide, by decide⟩ ∧
      (Filter.date "d" .after
        (.native ⟨1341100800, 750000000, by decide, by decide, by decide⟩)).accepts
        .default (Record.empty.insert "d" (.date endOfJune2012)) = false) ∧
    (noonInJuly2012 ≤ pastNoonInJuly2012 ∧ noonInJuly2012.Overtakes pastNoonInJuly2012 ∧
      (Filter.date "d" .after (.native pastNoonInJuly2012)).accepts .default
        (Record.empty.insert "d" (.date noonInJuly2012)) = true) := by
  have held (t : Timestamp) : (Record.empty.insert "d" (.date t)).get? "d" = some (.date t) := by
    rw [Record.get?_insert, if_pos rfl]
  refine ⟨?july, ?caught_up, ?noon⟩
  case july =>
    have earlier : endOfJune2012 ≤ startOfJuly2012 := Or.inl (by decide)
    have overtaken : endOfJune2012.Overtakes startOfJuly2012 := by decide
    refine ⟨earlier, overtaken, ?_⟩
    exact ((order_kept_but_for_overtaking _ _ earlier "d" .default _).2 (held _)).mpr
      ⟨by decide, overtaken⟩
  case caught_up =>
    refine ⟨Or.inl (by decide), ?_⟩
    rw [← Bool.not_eq_true,
      (order_kept_but_for_overtaking _ _ (Or.inl (by decide)) "d" .default _).1 (held _)]
    decide
  case noon =>
    have earlier : noonInJuly2012 ≤ pastNoonInJuly2012 := Or.inl (by decide)
    have overtaken : noonInJuly2012.Overtakes pastNoonInJuly2012 := by decide
    refine ⟨earlier, overtaken, ?_⟩
    exact ((order_kept_but_for_overtaking _ _ earlier "d" .default _).1 (held _)).mpr
      ⟨by decide, overtaken⟩

/-- The earlier of two dates matches as after the later one. -/
theorem leap_second_matches_after_next_second :
    endOfJune2012 ≤ startOfJuly2012 ∧
      (Filter.date "d" .after (.native startOfJuly2012)).accepts .default
        (Record.empty.insert "d" (.date endOfJune2012)) = true :=
  ⟨Or.inl (by decide), by decide +kernel⟩

end Filter

end Sieve
