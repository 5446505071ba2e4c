import Sieve.Proofs.FailClosed

/-!
The depth budget as a cut through the tree. Evaluating within a budget is evaluating without one
what is left of the tree when every node just past the budget is given up. So a larger budget never
loses a match, and one as large as the depth of the tree is no budget at all.
-/

namespace Sieve.Filter

/-- Stubs at every path of one length. The node at such a path stands one level deeper than the
length says, the root being level 1 at the empty path. -/
def cutAt (length : Nat) (stub : Path → Stub) (path : Path) : Option Stub :=
  if path.length = length then some (stub path) else none

/-- The tree down to a level, with an unsupported node for every node on the next. -/
def cutBelow (level : Nat) (stub : Path → Stub) (f : Filter) : Filter :=
  f.stubbed (cutAt level stub)

theorem cutAt_zero_root (stub : Path → Stub) : cutAt 0 stub [] = some (stub []) := rfl

theorem cutAt_succ_root (length : Nat) (stub : Path → Stub) : cutAt (length + 1) stub [] = none :=
  rfl

/-- One step down the paths are one shorter. -/
theorem cutAt_succ_below (length index : Nat) (stub : Path → Stub) :
    (fun path => cutAt (length + 1) stub (index :: path)) =
      cutAt length fun path => stub (index :: path) := by
  funext path
  simp only [cutAt, List.length_cons, Nat.add_right_cancel_iff]

variable {r : Record} {offset : Int32} {n : UInt64}

theorem exceeded?_eq_none_iff (level : Nat) :
    (Options.mk (some n) offset).exceeded? level = none ↔ level ≤ n.toNat := by
  simp [Options.exceeded?_eq_none_iff]

theorem reaches_unbounded (level : Nat) : (Options.mk none offset).exceeded? level = none := rfl

/-- The node just past the budget is false either way. -/
theorem verdict_cutBelow_zero (f : Filter) {level : Nat} (stub : Path → Stub)
    (past : n.toNat < level) :
    f.verdict ⟨some n, offset⟩ r level = (f.cutBelow 0 stub).verdict ⟨none, offset⟩ r level := by
  have exceeded : (Options.mk (some n) offset).exceeded? level = some n.toNat := if_pos past
  rw [verdict_exceeded exceeded, cutBelow, stubbed_here (cutAt_zero_root stub), verdict_unsupported]

/-- What the budget still allows at a level is the length of the paths that lead from there to the
cut. -/
theorem verdict_cutBelow (f : Filter) (length level : Nat) (stub : Path → Stub)
    (reach : level + length = n.toNat + 1) :
    f.verdict ⟨some n, offset⟩ r level =
      (f.cutBelow length stub).verdict ⟨none, offset⟩ r level := by
  induction f generalizing length level stub with
  | unsupported reason raw =>
    cases length with
    | zero => exact verdict_cutBelow_zero _ stub (by omega)
    | succ length =>
      rw [cutBelow, stubbed_unsupported (cutAt_succ_root length stub), verdict_unsupported,
        verdict_unsupported]
  | leaf l =>
    cases length with
    | zero => exact verdict_cutBelow_zero _ stub (by omega)
    | succ length =>
      have within : (Options.mk (some n) offset).exceeded? level = none :=
        (exceeded?_eq_none_iff level).mpr (by omega)
      rw [cutBelow, stubbed_leaf (cutAt_succ_root length stub), verdict_leaf within,
        verdict_leaf (reaches_unbounded level)]
      rfl
  | combine c children ih =>
    cases length with
    | zero => exact verdict_cutBelow_zero _ stub (by omega)
    | succ length =>
      have within : (Options.mk (some n) offset).exceeded? level = none :=
        (exceeded?_eq_none_iff level).mpr (by omega)
      rw [cutBelow, stubbed_combine (cutAt_succ_root length stub), verdict_combine within,
        verdict_combine (reaches_unbounded level)]
      congr 1
      have each : List.Forall₂ (fun g f => f.verdict ⟨some n, offset⟩ r (level + 1) =
          g.verdict ⟨none, offset⟩ r (level + 1))
          (stubbedFrom (cutAt (length + 1) stub) 0 children) children := by
        refine forall₂_stubbedFrom _ 0 fun f hf index => ?_
        rw [cutAt_succ_below]
        exact ih f hf length (level + 1) _ (by omega)
      rw [← List.forall₂_eq_eq_eq, List.forall₂_map_left_iff, List.forall₂_map_right_iff]
      exact each.flip

/-- A wider budget lets every node through that the narrower one did. -/
theorem verdict_mono_budget (f : Filter) {o o' : Options} {level : Nat}
    (wider : ∀ level, o.exceeded? level = none → o'.exceeded? level = none)
    (same : o.naiveOffset = o'.naiveOffset) (h : f.verdict o r level = true) :
    f.verdict o' r level = true := by
  apply f.verdict_mono wider ?_ h
  intro l _ holds
  rw [← same]
  exact holds

/-- Without a budget no level is told from another. -/
theorem verdict_unbounded (f : Filter) (level other : Nat) :
    f.verdict ⟨none, offset⟩ r level = f.verdict ⟨none, offset⟩ r other := by
  induction f generalizing level other with
  | leaf l => rw [verdict_leaf (reaches_unbounded level), verdict_leaf (reaches_unbounded other)]
  | unsupported reason raw => rw [verdict_unsupported, verdict_unsupported]
  | combine c children ih =>
    rw [verdict_combine (reaches_unbounded level), verdict_combine (reaches_unbounded other)]
    congr 1
    exact List.map_congr_left fun f hf => ih f hf (level + 1) (other + 1)

/-- A filter that never matches does not match as a part of another one either. -/
theorem verdict_of_never {f : Filter} (never : ∀ o r, f.accepts o r = false) (o : Options)
    (r : Record) (level : Nat) : f.verdict o r level = false := by
  rw [← Bool.not_eq_true]
  intro h
  have unbounded : f.verdict ⟨none, o.naiveOffsetMinutes⟩ r level = true :=
    verdict_mono_budget f (o := o) (fun level _ => reaches_unbounded level) rfl h
  rw [verdict_unbounded f level 1, ← accepts_eq_verdict, never] at unbounded
  cases unbounded

theorem depth_le_greatestDepth {f : Filter} {children : List Filter} (h : f ∈ children) :
    f.depth ≤ greatestDepth children := by
  induction children with
  | nil => cases h
  | cons g rest ih =>
    rw [greatestDepth]
    rcases List.mem_cons.mp h with rfl | h
    · exact Nat.le_max_left _ _
    · exact Nat.le_trans (ih h) (Nat.le_max_right _ _)

theorem depth_pos (f : Filter) : 0 < f.depth := by
  cases f <;> rw [depth] <;> omega

/-- Nothing stands below the last level of a tree. -/
theorem cutBelow_of_depth_le (f : Filter) (level : Nat) (stub : Path → Stub)
    (h : f.depth ≤ level) : f.cutBelow level stub = f := by
  induction f generalizing level stub with
  | leaf l =>
    cases level with
    | zero => have := depth_pos (leaf l); omega
    | succ level => exact stubbed_leaf (cutAt_succ_root level stub) l
  | unsupported reason raw =>
    cases level with
    | zero => have := depth_pos (unsupported reason raw); omega
    | succ level => exact stubbed_unsupported (cutAt_succ_root level stub) reason raw
  | combine c children ih =>
    cases level with
    | zero => have := depth_pos (combine c children); omega
    | succ level =>
      rw [depth] at h
      rw [cutBelow, stubbed_combine (cutAt_succ_root level stub)]
      congr 1
      rw [← List.forall₂_eq_eq_eq]
      refine forall₂_stubbedFrom _ 0 fun f hf index => ?_
      rw [cutAt_succ_below]
      have := depth_le_greatestDepth hf
      exact ih f hf level _ (by omega)

/-- **The depth budget is a cut.** Within a budget a filter has the verdict that the tree cut below
that level has without one, whatever the nodes given up are replaced with. A match within a budget
is a match within every larger one and without any, and a budget no smaller than the depth of the
tree changes no verdict. -/
theorem accepts_within_budget (f : Filter) (r : Record) (offset : Int32) (n : UInt64)
    (stub : Path → Stub) :
    f.accepts ⟨some n, offset⟩ r = (f.cutBelow n.toNat stub).accepts ⟨none, offset⟩ r ∧
    (∀ m ≤ n, f.accepts ⟨some m, offset⟩ r = true →
      f.accepts ⟨some n, offset⟩ r = true ∧ f.accepts ⟨none, offset⟩ r = true) ∧
    (f.depth ≤ n.toNat → f.accepts ⟨some n, offset⟩ r = f.accepts ⟨none, offset⟩ r) := by
  have cut : f.accepts ⟨some n, offset⟩ r = (f.cutBelow n.toNat stub).accepts ⟨none, offset⟩ r :=
    verdict_cutBelow f n.toNat 1 stub (by omega)
  refine ⟨cut, fun m hm h => ⟨?_, ?_⟩, fun deep => ?_⟩
  · refine verdict_mono_budget f (o := ⟨some m, offset⟩) (fun level within => ?_) rfl h
    rw [exceeded?_eq_none_iff] at within ⊢
    exact Nat.le_trans within hm
  · exact verdict_mono_budget f (o := ⟨some m, offset⟩) (fun level _ => reaches_unbounded level)
      rfl h
  · rw [cut, cutBelow_of_depth_le f n.toNat stub deep]

/-- Three levels within the budgets 3 and 4. -/
theorem three_levels_within_budget :
    ((Filter.or [.and [.boolean "a" true]]).accepts ⟨some 3, 0⟩
        (Record.empty.insert "a" (.bool true)) = true ∧
      (Filter.or [.and [.boolean "a" true]]).depth ≤ (4 : UInt64).toNat) ∧
    (Filter.or [.and [.boolean "a" true]]).accepts ⟨some 4, 0⟩
        (Record.empty.insert "a" (.bool true)) = true ∧
    (Filter.or [.and [.boolean "a" true]]).accepts ⟨some 4, 0⟩
        (Record.empty.insert "a" (.bool true)) =
      (Filter.or [.and [.boolean "a" true]]).accepts ⟨none, 0⟩
        (Record.empty.insert "a" (.bool true)) := by
  have budget := accepts_within_budget (.or [.and [.boolean "a" true]])
    (Record.empty.insert "a" (.bool true)) 0 4 fun _ => ("given up", .null)
  have matches_three : (Filter.or [.and [.boolean "a" true]]).accepts ⟨some 3, 0⟩
      (Record.empty.insert "a" (.bool true)) = true := by decide
  have shallow : (Filter.or [.and [.boolean "a" true]]).depth ≤ (4 : UInt64).toNat := by decide
  exact ⟨⟨matches_three, shallow⟩, (budget.2.1 3 (by decide) matches_three).1, budget.2.2 shallow⟩

end Sieve.Filter
