import Mathlib.Data.List.Basic
import Sieve.Proofs.Filter.Tree
import Sieve.Proofs.Selection

/-!
Evaluation fails closed. Giving up any subtrees of a filter as unsupported nodes can only take
matches away, whatever the tree around them, so a partly malformed filter never lets a record
through that the filter as it was meant would hold back. An unsupported node counts as an `or`
without children.
-/

namespace Sieve.Filter

variable {o : Options} {r : Record}

/-- The step from children to their combinator is monotone, and a stub itself matches nothing. -/
theorem verdict_of_verdict_stubbed (f : Filter) (stubs : Path → Option Stub) (level : Nat)
    (h : (f.stubbed stubs).verdict o r level = true) : f.verdict o r level = true := by
  induction f generalizing stubs level with
  | leaf l =>
    cases root : stubs [] with
    | some stub => rw [stubbed_here root, verdict_unsupported] at h; cases h
    | none => rwa [stubbed_leaf root] at h
  | unsupported reason raw =>
    cases root : stubs [] with
    | some stub => rw [stubbed_here root, verdict_unsupported] at h; cases h
    | none => rwa [stubbed_unsupported root] at h
  | combine c children ih =>
    cases root : stubs [] with
    | some stub => rw [stubbed_here root, verdict_unsupported] at h; cases h
    | none =>
      rw [stubbed_combine root] at h
      refine verdict_combine_mono id ?_ h
      exact forall₂_stubbedFrom stubs 0 fun f hf _ => ih f hf _ (level + 1)

theorem verdict_emptied (f : Filter) (level : Nat) :
    f.emptied.verdict o r level = f.verdict o r level := by
  induction f, level using levelInduction o with
  | exceeded f level budget past => rw [verdict_exceeded past, verdict_exceeded past]
  | leaf l level _ => rfl
  | unsupported reason raw level within =>
    rw [verdict_unsupported, emptied, verdict_combine within]
    rfl
  | combine c children level within ih =>
    rw [emptied, emptiedAll_eq_map, verdict_combine within, verdict_combine within, List.map_map]
    congr 1
    exact List.map_congr_left ih

theorem keep_sublist {f g : Filter} (h : ∀ r, g.accepts o r = true → f.accepts o r = true)
    (records : List Record) : (g.keep o records).Sublist (f.keep o records) := by
  rw [keep_eq_filter, keep_eq_filter]
  exact List.monotone_filter_right records h

theorem select_sublist {f g : Filter} (h : ∀ r, g.accepts o r = true → f.accepts o r = true)
    (records : List Record) : (g.select o records).Sublist (f.select o records) := by
  rw [select_eq, select_eq]
  apply List.Sublist.map
  apply List.monotone_filter_right
  intro entry
  exact h entry.1

/-- **Failing closed.** With any subtrees given up for any reasons a filter matches no record that
it did not match whole, so of every list it keeps a subsequence, in the records as in their
positions; and an unsupported node is worth as much as an empty `or`. -/
theorem stubbed_fails_closed (f : Filter) (stubs : Path → Option Stub) (o : Options) :
    (∀ r, (f.stubbed stubs).accepts o r = true → f.accepts o r = true) ∧
    (∀ records, ((f.stubbed stubs).keep o records).Sublist (f.keep o records) ∧
      ((f.stubbed stubs).select o records).Sublist (f.select o records)) ∧
    ∀ r, f.emptied.accepts o r = f.accepts o r := by
  have matches_less : ∀ r, (f.stubbed stubs).accepts o r = true → f.accepts o r = true :=
    fun _ h => verdict_of_verdict_stubbed f stubs 1 h
  exact ⟨matches_less, fun records => ⟨keep_sublist matches_less records,
    select_sublist matches_less records⟩, fun _ => verdict_emptied f 1⟩

/-- Giving up one branch of an `or` leaves the match of the other, which the whole filter has too.
-/
theorem other_branch_fails_closed :
    ((Filter.or [.and [.boolean "a" true], .boolean "b" true]).stubbed fun path =>
        if path = [0] then some ("missing", .null) else none).accepts .default
      (Record.empty.insert "b" (.bool true)) = true ∧
    (Filter.or [.and [.boolean "a" true], .boolean "b" true]).accepts .default
      (Record.empty.insert "b" (.bool true)) = true := by
  have matches_stubbed : ((Filter.or [.and [.boolean "a" true], .boolean "b" true]).stubbed
      fun path => if path = [0] then some ("missing", .null) else none).accepts .default
      (Record.empty.insert "b" (.bool true)) = true := by decide
  exact ⟨matches_stubbed, (stubbed_fails_closed _ _ .default).1 _ matches_stubbed⟩

end Sieve.Filter
