import Mathlib.Data.List.Forall2
import Sieve.Filter.Path

/-!
Filters as trees: induction over nodes, and trees with some of their subtrees given up. A subtree is
given up at a path, so one replacement covers every set of subtrees, each under a reason and JSON of
its own.
-/

namespace Sieve.Filter

/-- Induction over the nodes of a filter, the children of a combinator all at once. -/
@[elab_as_elim, induction_eliminator]
theorem nodeInduction {motive : Filter → Prop} (leaf : ∀ l, motive (.leaf l))
    (combine : ∀ c children, (∀ f ∈ children, motive f) → motive (.combine c children))
    (unsupported : ∀ reason raw, motive (.unsupported reason raw)) (f : Filter) : motive f := by
  refine @Filter.rec motive (fun fs => ∀ f ∈ fs, motive f) leaf combine unsupported ?_ ?_ f
  · intro f hf
    cases hf
  · intro f rest hf hrest g hg
    rcases List.mem_cons.mp hg with rfl | hg
    · exact hf
    · exact hrest g hg

theorem nodesOf_eq_flatMap (level : Nat) (children : List Filter) :
    nodesOf level children = children.flatMap (nodes level) := by
  induction children with
  | nil => rfl
  | cons f rest ih => rw [nodesOf, List.flatMap_cons, ih]

theorem mem_nodes_combine {entry : Nat × Filter} {level : Nat} {c : Combinator}
    {children : List Filter} :
    entry ∈ (combine c children).nodes level ↔
      entry = (level, combine c children) ∨ ∃ f ∈ children, entry ∈ f.nodes (level + 1) := by
  rw [nodes, List.mem_cons, nodesOf_eq_flatMap, List.mem_flatMap]

theorem mem_nodes_self (f : Filter) (level : Nat) : (level, f) ∈ f.nodes level := by
  cases f <;> exact List.mem_cons_self

/-- What holds of every node of a combinator holds of every node of a child. -/
theorem forall_nodes_of_child {P : Filter → Prop} {level : Nat} {c : Combinator}
    {children : List Filter} (h : ∀ entry ∈ (combine c children).nodes level, P entry.2)
    {f : Filter} (hf : f ∈ children) : ∀ entry ∈ f.nodes (level + 1), P entry.2 :=
  fun entry below => h entry (mem_nodes_combine.mpr (Or.inr ⟨f, hf, below⟩))

theorem leavesOf_eq_flatMap (children : List Filter) :
    leavesOf children = children.flatMap leaves := by
  induction children with
  | nil => rfl
  | cons f rest ih => rw [leavesOf, List.flatMap_cons, ih]

theorem mem_leaves_combine {l : Leaf} {c : Combinator} {children : List Filter} :
    l ∈ (combine c children).leaves ↔ ∃ f ∈ children, l ∈ f.leaves := by
  rw [leaves, leavesOf_eq_flatMap, List.mem_flatMap]

/-- The leaves are the nodes that are leaves. -/
theorem mem_leaves_iff {l : Leaf} {f : Filter} {level : Nat} :
    l ∈ f.leaves ↔ ∃ entry ∈ f.nodes level, entry.2 = leaf l := by
  induction f generalizing level with
  | leaf m => simp [leaves, nodes, eq_comm]
  | unsupported reason raw => simp [leaves, nodes]
  | combine c children ih =>
    rw [mem_leaves_combine]
    constructor
    · rintro ⟨f, hf, below⟩
      obtain ⟨entry, mem, equal⟩ := (ih f hf).mp below
      exact ⟨entry, mem_nodes_combine.mpr (Or.inr ⟨f, hf, mem⟩), equal⟩
    · rintro ⟨entry, mem, equal⟩
      rcases mem_nodes_combine.mp mem with rfl | ⟨f, hf, below⟩
      · cases equal
      · exact ⟨f, hf, (ih f hf).mpr ⟨entry, below, equal⟩⟩

theorem firstUnsupportedOf?_eq_none_iff (index : Nat) (children : List Filter) :
    firstUnsupportedOf? index children = none ↔ ∀ f ∈ children, f.firstUnsupported? = none := by
  induction children generalizing index with
  | nil => simp [firstUnsupportedOf?]
  | cons f rest ih =>
    rw [firstUnsupportedOf?, List.forall_mem_cons, ← ih (index + 1)]
    cases f.firstUnsupported? <;> simp

/-- What stands in place of a subtree: the reason and the JSON of an unsupported node. -/
abbrev Stub : Type := String × Json

mutual

/-- The tree with an unsupported node at every path that has a stub. Below such a path nothing is
left to replace. -/
def stubbed (stubs : Path → Option Stub) (f : Filter) : Filter :=
  match stubs [] with
  | some (reason, raw) => .unsupported reason raw
  | none =>
    match f with
    | .leaf l => .leaf l
    | .combine c children => .combine c (stubbedFrom stubs 0 children)
    | .unsupported reason raw => .unsupported reason raw
termination_by structural f

/-- The same among children, the first of which has this index. -/
def stubbedFrom (stubs : Path → Option Stub) (index : Nat) (children : List Filter) :
    List Filter :=
  match children with
  | [] => []
  | f :: rest =>
    stubbed (fun path => stubs (index :: path)) f :: stubbedFrom stubs (index + 1) rest
termination_by structural children

end

variable {stubs : Path → Option Stub}

theorem stubbed_here {reason : String} {raw : Json} (h : stubs [] = some (reason, raw))
    (f : Filter) : f.stubbed stubs = .unsupported reason raw := by
  rw [stubbed.eq_def, h]

theorem stubbed_leaf (h : stubs [] = none) (l : Leaf) : (leaf l).stubbed stubs = .leaf l := by
  rw [stubbed.eq_def, h]

theorem stubbed_combine (h : stubs [] = none) (c : Combinator) (children : List Filter) :
    (combine c children).stubbed stubs = .combine c (stubbedFrom stubs 0 children) := by
  rw [stubbed.eq_def, h]

theorem stubbed_unsupported (h : stubs [] = none) (reason : String) (raw : Json) :
    (unsupported reason raw).stubbed stubs = .unsupported reason raw := by
  rw [stubbed.eq_def, h]

/-- Stubs move down with the paths that lead to them, so a relation between every child and what is
left of it relates the lists. -/
theorem forall₂_stubbedFrom {R : Filter → Filter → Prop} {children : List Filter}
    (stubs : Path → Option Stub) (index : Nat)
    (h : ∀ f ∈ children, ∀ i, R (f.stubbed fun path => stubs (i :: path)) f) :
    List.Forall₂ R (stubbedFrom stubs index children) children := by
  induction children generalizing index with
  | nil => exact .nil
  | cons f rest ih =>
    exact .cons (h f List.mem_cons_self index)
      (ih (index + 1) fun g hg => h g (List.mem_cons_of_mem f hg))

mutual

/-- The tree with an empty `or` in place of every unsupported node. -/
def emptied : Filter → Filter
  | .leaf l => .leaf l
  | .combine c children => .combine c (emptiedAll children)
  | .unsupported _ _ => .combine .or []
termination_by structural f => f

def emptiedAll : List Filter → List Filter
  | [] => []
  | f :: rest => emptied f :: emptiedAll rest
termination_by structural fs => fs

end

theorem emptiedAll_eq_map (children : List Filter) :
    emptiedAll children = children.map emptied := by
  induction children with
  | nil => rfl
  | cons f rest ih => rw [emptiedAll, List.map_cons, ih]

end Sieve.Filter
