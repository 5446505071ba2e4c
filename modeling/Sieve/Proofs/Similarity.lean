import Mathlib.Tactic.Choose
import Sieve.Proofs.Selection

/-!
Filters that differ in the order of children and in how often these stand there. What a combinator
comes to is settled by whether any child has its deciding verdict, so it depends on the set of its
children, and on every level at once. The runs themselves are not alike: each stops early where its
own order lets it, and visits and logs other nodes.
-/

namespace Sieve

namespace Combinator

/-- One child with the deciding verdict is enough, and nothing else leads to it. -/
theorem joins_eq_deciding_iff (c : Combinator) (verdicts : List Bool) :
    c.joins verdicts = c.deciding ↔ c.deciding ∈ verdicts := by
  induction verdicts with
  | nil => cases c <;> simp [joins, deciding]
  | cons verdict rest ih =>
    rw [joins_cons, List.mem_cons]
    by_cases decides : verdict = c.deciding
    · simp [decides]
    · simp [decides, Ne.symm decides, ih]

theorem joins_congr (c : Combinator) {verdicts others : List Bool}
    (same : ∀ verdict, verdict ∈ verdicts ↔ verdict ∈ others) :
    c.joins verdicts = c.joins others := by
  have decided : c.joins verdicts = c.deciding ↔ c.joins others = c.deciding := by
    rw [joins_eq_deciding_iff, joins_eq_deciding_iff]
    exact same c.deciding
  by_cases h : c.joins others = c.deciding
  · exact (decided.mpr h).trans h.symm
  · have h' : c.joins verdicts ≠ c.deciding := fun d => h (decided.mp d)
    rw [Bool.eq_not_of_ne h', Bool.eq_not_of_ne h]

end Combinator

namespace Filter

/-- The same leaf or undecoded node, or combinators of one kind such that every child of each is
similar to some child of the other, which `forth` and `back` choose. -/
inductive Similar : Filter → Filter → Prop
  | leaf (l : Leaf) : Similar (.leaf l) (.leaf l)
  | unsupported (reason : String) (raw : Json) :
      Similar (.unsupported reason raw) (.unsupported reason raw)
  | combine (c : Combinator) {fs gs : List Filter} (forth : ∀ f ∈ fs, Filter)
      (back : ∀ g ∈ gs, Filter) (into : ∀ f hf, forth f hf ∈ gs) (onto : ∀ g hg, back g hg ∈ fs)
      (alike : ∀ f hf, Similar f (forth f hf)) (alike' : ∀ g hg, Similar (back g hg) g) :
      Similar (.combine c fs) (.combine c gs)

variable {o : Options} {r : Record} {c d : Combinator} {fs gs : List Filter}

/-- The two directions need not pair the children off. -/
theorem similar_combine_iff : Similar (combine c fs) (combine d gs) ↔
    c = d ∧ (∀ f ∈ fs, ∃ g ∈ gs, f.Similar g) ∧ ∀ g ∈ gs, ∃ f ∈ fs, f.Similar g := by
  constructor
  · intro h
    cases h with
    | combine c forth back into onto alike alike' =>
      exact ⟨rfl, fun f hf => ⟨forth f hf, into f hf, alike f hf⟩,
        fun g hg => ⟨back g hg, onto g hg, alike' g hg⟩⟩
  · rintro ⟨rfl, each, each'⟩
    choose forth into alike using each
    choose back onto alike' using each'
    exact .combine c forth back into onto alike alike'

theorem Similar.refl (f : Filter) : f.Similar f := by
  induction f with
  | leaf l => exact .leaf l
  | unsupported reason raw => exact .unsupported reason raw
  | combine c children ih =>
    apply similar_combine_iff.mpr
    exact ⟨rfl, fun f hf => ⟨f, hf, ih f hf⟩, fun f hf => ⟨f, hf, ih f hf⟩⟩

/-- Children may be put in another order and repeated. -/
theorem similar_of_same_children (c : Combinator) (same : ∀ f, f ∈ fs ↔ f ∈ gs) :
    Similar (combine c fs) (combine c gs) := by
  apply similar_combine_iff.mpr
  refine ⟨rfl, fun f hf => ?_, fun g hg => ?_⟩
  · exact ⟨f, (same f).mp hf, .refl f⟩
  · exact ⟨g, (same g).mpr hg, .refl g⟩

/-- Similar children stand on the same level, so the depth budget treats them alike. -/
theorem verdict_of_similar {f g : Filter} (h : f.Similar g) (level : Nat) :
    f.verdict o r level = g.verdict o r level := by
  induction h generalizing level with
  | leaf l => rfl
  | unsupported reason raw => rfl
  | combine c forth back into onto _ _ ih ih' =>
    cases within : o.exceeded? level with
    | some budget => rw [verdict_exceeded within, verdict_exceeded within]
    | none =>
      rw [verdict_combine within, verdict_combine within]
      apply c.joins_congr
      intro verdict
      simp only [List.mem_map]
      constructor
      · rintro ⟨f, hf, rfl⟩
        exact ⟨forth f hf, into f hf, (ih f hf (level + 1)).symm⟩
      · rintro ⟨g, hg, rfl⟩
        exact ⟨back g hg, onto g hg, ih' g hg (level + 1)⟩

/-- **Only the set of children counts.** Similar filters match the same records under all options,
so they keep the same records of every list, at the same positions. -/
theorem similar_match_alike {f g : Filter} (h : f.Similar g) (o : Options) :
    (∀ r, f.accepts o r = g.accepts o r) ∧
    ∀ records, f.keep o records = g.keep o records ∧ f.select o records = g.select o records := by
  have verdicts (r : Record) : f.accepts o r = g.accepts o r := verdict_of_similar h 1
  have same : f.accepts o = g.accepts o := funext verdicts
  refine ⟨verdicts, fun records => ⟨?_, ?_⟩⟩
  · rw [keep_eq_filter, keep_eq_filter, same]
  · rw [select_eq, select_eq, same]

/-- A choice between a pair of booleans and a text. -/
def pairOrText : Filter :=
  .or [.and [.boolean "a" true, .boolean "b" true], .string "b" .eq "x"]

/-- The same turned round on both levels, with some of it repeated. -/
def textOrPairs : Filter :=
  .or [.string "b" .eq "x", .and [.boolean "b" true, .boolean "a" true, .boolean "b" true],
    .and [.boolean "a" true, .boolean "b" true]]

/-- Both match, although only the second meets the field of another kind. -/
theorem turned_round_and_repeated_match_alike :
    pairOrText.Similar textOrPairs ∧
    textOrPairs.accepts ⟨some 3, 0⟩
        ((Record.empty.insert "a" (.bool true)).insert "b" (.bool true)) = true ∧
    (pairOrText.run ⟨some 3, 0⟩
        ((Record.empty.insert "a" (.bool true)).insert "b" (.bool true)) 1).events = [] ∧
    (textOrPairs.run ⟨some 3, 0⟩
        ((Record.empty.insert "a" (.bool true)).insert "b" (.bool true)) 1).events =
      [.kindMismatch "b" .string .bool] := by
  have pair : Similar (.and [.boolean "a" true, .boolean "b" true])
      (.and [.boolean "b" true, .boolean "a" true, .boolean "b" true]) := by
    apply similar_of_same_children
    intro child
    simp only [List.mem_cons, List.not_mem_nil, or_false]
    tauto
  have similar : pairOrText.Similar textOrPairs := by
    apply similar_combine_iff.mpr
    simp only [List.mem_cons, List.not_mem_nil, or_false, forall_eq_or_imp, forall_eq,
      exists_eq_or_imp, exists_eq_left, Similar.refl, pair, or_true, true_or, and_self]
  have matched : pairOrText.accepts ⟨some 3, 0⟩
      ((Record.empty.insert "a" (.bool true)).insert "b" (.bool true)) = true := by
    decide
  have alike := (similar_match_alike similar ⟨some 3, 0⟩).1
  exact ⟨similar, (alike _).symm.trans matched, by decide, by decide⟩

end Filter

end Sieve
