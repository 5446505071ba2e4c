import Mathlib.Data.List.Forall2
import Sieve.Evaluate
import Sieve.Proofs.Filter.Tree

/-!
Runs of nodes, and their verdicts apart from their logs. A node within the depth budget gets the
verdict that its constructor says: a leaf its comparison, a combinator what all its children
together come to although the run stops at the first that decides, and an unsupported node none but
false.
-/

namespace Sieve

namespace Logged

variable {α β : Type}

@[simp] theorem value_bind (x : Logged α) (f : α → Logged β) :
    (x >>= f).value = (f x.value).value := rfl

theorem events_bind (x : Logged α) (f : α → Logged β) :
    (x >>= f).events = x.events ++ (f x.value).events := rfl

theorem mk_bind (a : α) (events : List Event) (f : α → Logged β) :
    (Logged.mk a events >>= f) = ⟨(f a).value, events ++ (f a).events⟩ := rfl

end Logged

namespace Combinator

/-- What verdicts come to when all of them are known. -/
def joins (c : Combinator) (verdicts : List Bool) : Bool :=
  match c with
  | .or => verdicts.any id
  | .and => verdicts.all id

/-- The first verdict settles the whole, or the others do. -/
theorem joins_cons (c : Combinator) (verdict : Bool) (rest : List Bool) :
    c.joins (verdict :: rest) = if verdict = c.deciding then verdict else c.joins rest := by
  cases c <;> cases verdict <;> simp [joins, deciding]

/-- No combinator turns a verdict round. -/
theorem joins_mono (c : Combinator) {fewer more : List Bool}
    (h : List.Forall₂ (fun a b => a = true → b = true) fewer more)
    (joined : c.joins fewer = true) : c.joins more = true := by
  cases c with
  | or =>
    induction h with
    | nil => exact joined
    | cons ab _ ih =>
      simp only [joins, List.any_cons, id_eq, Bool.or_eq_true] at joined ih ⊢
      exact joined.imp ab ih
  | and =>
    induction h with
    | nil => exact joined
    | cons ab _ ih =>
      simp only [joins, List.all_cons, id_eq, Bool.and_eq_true] at joined ih ⊢
      exact ⟨ab joined.1, ih joined.2⟩

end Combinator

namespace Options

variable {o : Options} {level budget : Nat}

theorem exceeded?_eq_some_iff :
    o.exceeded? level = some budget ↔
      ∃ n, o.maxDepth = some n ∧ n.toNat = budget ∧ n.toNat < level := by
  rw [exceeded?]
  cases o.maxDepth with
  | none => simp
  | some n =>
    simp only [Option.ite_none_right_eq_some, Option.some.injEq, exists_eq_left']
    exact And.comm

theorem exceeded?_eq_none_iff :
    o.exceeded? level = none ↔ ∀ n, o.maxDepth = some n → level ≤ n.toNat := by
  rw [exceeded?]
  cases o.maxDepth with
  | none => simp
  | some n => simp

/-- Only a budget of nothing keeps the root from being looked at. -/
theorem exceeded?_root (o : Options) : o.exceeded? 1 = none ↔ o.maxDepth ≠ some 0 := by
  rw [exceeded?_eq_none_iff]
  constructor
  · intro within zero
    exact absurd (within 0 zero) (by decide)
  · intro nonzero n found
    by_cases zero : n = 0
    · exact absurd (zero ▸ found) nonzero
    · have : n.toNat ≠ 0 := fun h => zero (UInt64.toNat_inj.mp h)
      omega

end Options

namespace Filter

variable {o : Options} {r : Record} {level : Nat}

theorem run_exceeded {budget : Nat} (h : o.exceeded? level = some budget) (f : Filter) :
    f.run o r level = ⟨false, [.tooDeep level budget]⟩ := by
  rw [run.eq_def, h]
  rfl

theorem run_leaf (h : o.exceeded? level = none) (l : Leaf) :
    (leaf l).run o r level = l.run o.naiveOffset r := by
  rw [run.eq_def, h]

theorem run_combine (h : o.exceeded? level = none) (c : Combinator) (children : List Filter) :
    (combine c children).run o r level = runUntil o r (level + 1) c.deciding children := by
  rw [run.eq_def, h]

theorem run_unsupported (h : o.exceeded? level = none) (reason : String) (raw : Json) :
    (unsupported reason raw).run o r level = ⟨false, [.nodeFails reason]⟩ := by
  rw [run.eq_def, h]
  rfl

/-- Induction over the nodes that a run may reach: one past the budget is not opened, and the
children of one within it stand a level below. -/
@[elab_as_elim]
theorem levelInduction (o : Options) {motive : Filter → Nat → Prop}
    (exceeded : ∀ f level budget, o.exceeded? level = some budget → motive f level)
    (leaf : ∀ l level, o.exceeded? level = none → motive (.leaf l) level)
    (combine : ∀ c children level, o.exceeded? level = none →
      (∀ f ∈ children, motive f (level + 1)) → motive (.combine c children) level)
    (unsupported : ∀ reason raw level, o.exceeded? level = none →
      motive (.unsupported reason raw) level)
    (f : Filter) (level : Nat) : motive f level := by
  have opened (f : Filter) (level : Nat) (within : o.exceeded? level = none → motive f level) :
      motive f level := by
    cases past : o.exceeded? level with
    | some budget => exact exceeded f level budget past
    | none => exact within past
  induction f generalizing level with
  | leaf l => exact opened _ level (leaf l level)
  | unsupported reason raw => exact opened _ level (unsupported reason raw level)
  | combine c children ih =>
    apply opened
    intro within
    exact combine c children level within fun f hf => ih f hf (level + 1)

/-- The verdict of a node at a level, the root being level 1. -/
def verdict (o : Options) (r : Record) (level : Nat) (f : Filter) : Bool := (f.run o r level).value

theorem accepts_eq_verdict (f : Filter) (o : Options) (r : Record) :
    f.accepts o r = f.verdict o r 1 := rfl

/-- Stopping at the first deciding child does not change what the children come to. -/
theorem value_runUntil (o : Options) (r : Record) (level : Nat) (c : Combinator)
    (children : List Filter) :
    (runUntil o r level c.deciding children).value =
      c.joins (children.map (verdict o r level)) := by
  induction children with
  | nil => cases c <;> rfl
  | cons f rest ih =>
    rw [runUntil, List.map_cons, Combinator.joins_cons, Logged.value_bind]
    change (if f.verdict o r level = c.deciding then _ else _ : Logged Bool).value = _
    split
    · rfl
    · exact ih

theorem verdict_exceeded {budget : Nat} (h : o.exceeded? level = some budget) (f : Filter) :
    f.verdict o r level = false := by
  rw [verdict, run_exceeded h]

theorem verdict_leaf (h : o.exceeded? level = none) (l : Leaf) :
    (leaf l).verdict o r level = (l.run o.naiveOffset r).value := by
  rw [verdict, run_leaf h]

/-- A leaf alone is looked at under every budget but that of nothing. -/
theorem accepts_leaf (l : Leaf) (o : Options) (r : Record) :
    (leaf l).accepts o r = true ↔ o.maxDepth ≠ some 0 ∧ (l.run o.naiveOffset r).value = true := by
  rw [accepts_eq_verdict, ← o.exceeded?_root]
  cases reached : o.exceeded? 1 with
  | none => simp [verdict_leaf reached]
  | some budget => simp [verdict_exceeded reached]

theorem verdict_combine (h : o.exceeded? level = none) (c : Combinator) (children : List Filter) :
    (combine c children).verdict o r level = c.joins (children.map (verdict o r (level + 1))) := by
  rw [verdict, run_combine h]
  exact value_runUntil o r (level + 1) c children

/-- A match of a combinator carries over to another budget and to other children, if it does child
by child. -/
theorem verdict_combine_mono {o' : Options} {r' : Record} {c : Combinator}
    {fewer more : List Filter} (wider : o.exceeded? level = none → o'.exceeded? level = none)
    (each : List.Forall₂ (fun g f => g.verdict o r (level + 1) = true →
      f.verdict o' r' (level + 1) = true) fewer more)
    (h : (combine c fewer).verdict o r level = true) :
    (combine c more).verdict o' r' level = true := by
  cases within : o.exceeded? level with
  | some budget => rw [verdict_exceeded within] at h; cases h
  | none =>
    rw [verdict_combine within] at h
    rw [verdict_combine (wider within)]
    refine c.joins_mono ?_ h
    rw [List.forall₂_map_left_iff, List.forall₂_map_right_iff]
    exact each

@[simp] theorem verdict_unsupported (o : Options) (r : Record) (level : Nat) (reason : String)
    (raw : Json) : (unsupported reason raw).verdict o r level = false := by
  cases h : o.exceeded? level with
  | none => rw [verdict, run_unsupported h]
  | some budget => exact verdict_exceeded h _

/-- A match carries over to another record and to other options, if the budget lets through every
node that it did and every leaf that held holds again. -/
theorem verdict_mono {o' : Options} {r' : Record} (f : Filter)
    (wider : ∀ level, o.exceeded? level = none → o'.exceeded? level = none)
    (each : ∀ l ∈ f.leaves, (l.run o.naiveOffset r).value = true →
      (l.run o'.naiveOffset r').value = true)
    (h : f.verdict o r level = true) : f.verdict o' r' level = true := by
  induction f, level using levelInduction o with
  | exceeded f level budget past => rw [verdict_exceeded past] at h; cases h
  | unsupported reason raw level _ => rw [verdict_unsupported] at h; cases h
  | leaf l level within =>
    rw [verdict_leaf within] at h
    rw [verdict_leaf (wider level within)]
    exact each l (by rw [leaves]; exact List.mem_cons_self) h
  | combine c children level within ih =>
    refine verdict_combine_mono (wider level) ?_ h
    refine List.forall₂_same.mpr fun f hf => ih f hf ?_
    intro l hl
    exact each l (mem_leaves_combine.mpr ⟨f, hf, hl⟩)

/-- Which children are looked at is settled by the verdicts of those before them, so children that
run the same both times are looked at both times or neither. -/
theorem runUntil_congr {o' : Options} {r' : Record} {deciding : Bool} {children : List Filter}
    (each : ∀ f ∈ children, f.run o r level = f.run o' r' level) :
    runUntil o r level deciding children = runUntil o' r' level deciding children := by
  induction children with
  | nil => rfl
  | cons f rest ih =>
    have later := ih fun g hg => each g (List.mem_cons_of_mem f hg)
    rw [runUntil, runUntil, each f List.mem_cons_self, later]

/-- Under one budget a filter runs the same whenever each of its leaves does. -/
theorem run_of_leaves {o' : Options} {r' : Record} (f : Filter) (limit : o.maxDepth = o'.maxDepth)
    (each : ∀ l ∈ f.leaves, l.run o.naiveOffset r = l.run o'.naiveOffset r') (level : Nat) :
    f.run o r level = f.run o' r' level := by
  have reach (level : Nat) : o.exceeded? level = o'.exceeded? level := by
    rw [Options.exceeded?, Options.exceeded?, limit]
  induction f, level using levelInduction o with
  | exceeded f level budget past =>
    rw [run_exceeded past, run_exceeded ((reach level).symm.trans past)]
  | unsupported reason raw level within =>
    rw [run_unsupported within, run_unsupported ((reach level).symm.trans within)]
  | leaf l level within =>
    have same := each l (by rw [leaves]; exact List.mem_cons_self)
    rw [run_leaf within, run_leaf ((reach level).symm.trans within), same]
  | combine c children level within ih =>
    have below (f : Filter) (hf : f ∈ children) :
        f.run o r (level + 1) = f.run o' r' (level + 1) := by
      apply ih f hf
      intro l hl
      exact each l (mem_leaves_combine.mpr ⟨f, hf, hl⟩)
    rw [run_combine within, run_combine ((reach level).symm.trans within), runUntil_congr below]

end Filter

end Sieve
