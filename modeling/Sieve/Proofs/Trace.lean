import Sieve.Proofs.Leaf
import Sieve.Proofs.Verdict

/-!
Evaluation without stopping early, and what the run that stops early keeps of it. A trace holds what
every child of every combinator comes to. The run has the verdict of the trace, and it logs what the
trace does, less the children that stand after one that settles their combinator.
-/

namespace Sieve

namespace Logged

/-- At most one event is logged, and only where the verdict is false. -/
def Terse (x : Logged Bool) : Prop :=
  x.events.length ≤ 1 ∧ (x.events ≠ [] → x.value = false)

theorem Terse.silent (verdict : Bool) : Terse ⟨verdict, []⟩ :=
  ⟨Nat.zero_le 1, fun logged => absurd rfl logged⟩

theorem Terse.single (event : Event) : Terse ⟨false, [event]⟩ := ⟨Nat.le_refl 1, fun _ => rfl⟩

theorem Terse.events_of_true {x : Logged Bool} (h : x.Terse) (holds : x.value = true) :
    x.events = [] := by
  by_contra logged
  rw [h.2 logged] at holds
  cases holds

end Logged

namespace Leaf

theorem terse_run (l : Leaf) (offset : UtcOffset) (r : Record) : (l.run offset r).Terse := by
  rcases l.run_cases offset r with silent | ⟨actual, logged⟩ | ⟨fieldValid, literalValid, logged⟩
  · rw [Logged.Terse, silent]
    exact Logged.Terse.silent _
  · rw [logged]
    exact .single _
  · rw [logged]
    exact .single _

theorem tooDeep_not_mem_events (l : Leaf) (offset : UtcOffset) (r : Record) (depth budget : Nat) :
    .tooDeep depth budget ∉ (l.run offset r).events := by
  rcases l.run_cases offset r with silent | ⟨actual, logged⟩ | ⟨fieldValid, literalValid, logged⟩
  · rw [silent]
    exact List.not_mem_nil
  · rw [logged]
    simp
  · rw [logged]
    simp

end Leaf

/-- An evaluation that leaves no child out. -/
inductive Trace where
  /-- A node that looks at no children. -/
  | ended (outcome : Logged Bool)
  /-- A combinator, which logs nothing of its own, with what all its children come to. -/
  | joined (c : Combinator) (children : List Trace)

namespace Trace

mutual

/-- The verdict when all children are asked: every one for `and`, some one for `or`. -/
def verdict : Trace → Bool
  | .ended outcome => outcome.value
  | .joined c children => c.joins (verdicts children)
termination_by structural t => t

def verdicts : List Trace → List Bool
  | [] => []
  | t :: rest => verdict t :: verdicts rest
termination_by structural ts => ts

end

mutual

/-- Every node, one before its children and these in their order. -/
def nodes : Trace → List Trace
  | .ended outcome => [.ended outcome]
  | .joined c children => .joined c children :: nodesOf children
termination_by structural t => t

def nodesOf : List Trace → List Trace
  | [] => []
  | t :: rest => nodes t ++ nodesOf rest
termination_by structural ts => ts

end

mutual

/-- The evaluation without the children that stand after the first deciding one, on every level. -/
def pruned : Trace → Trace
  | .ended outcome => .ended outcome
  | .joined c children => .joined c (prunedUntil c.deciding children)
termination_by structural t => t

def prunedUntil (deciding : Bool) : List Trace → List Trace
  | [] => []
  | t :: rest =>
    if verdict t = deciding then [pruned t] else pruned t :: prunedUntil deciding rest
termination_by structural ts => ts

end

/-- What a node itself logs. -/
def own : Trace → List Event
  | .ended outcome => outcome.events
  | .joined _ _ => []

/-- What is logged, node by node. -/
def events (t : Trace) : List Event := t.nodes.flatMap own

theorem verdicts_eq_map (children : List Trace) : verdicts children = children.map verdict := by
  induction children with
  | nil => rfl
  | cons t rest ih => rw [verdicts, List.map_cons, ih]

theorem nodesOf_eq_flatMap (children : List Trace) :
    nodesOf children = children.flatMap nodes := by
  induction children with
  | nil => rfl
  | cons t rest ih => rw [nodesOf, List.flatMap_cons, ih]

theorem events_ended (outcome : Logged Bool) : (ended outcome).events = outcome.events :=
  List.append_nil _

theorem events_joined (c : Combinator) (children : List Trace) :
    (joined c children).events = children.flatMap events := by
  rw [events, nodes, List.flatMap_cons, nodesOf_eq_flatMap, List.flatMap_assoc]
  rfl

/-- Induction over the nodes of an evaluation, the children of a combinator all at once. -/
@[elab_as_elim, induction_eliminator]
theorem nodeInduction {motive : Trace → Prop} (ended : ∀ outcome, motive (.ended outcome))
    (joined : ∀ c children, (∀ t ∈ children, motive t) → motive (.joined c children))
    (t : Trace) : motive t := by
  refine @Trace.rec motive (fun ts => ∀ t ∈ ts, motive t) ended joined ?_ ?_ t
  · intro t ht
    cases ht
  · intro t rest first later u hu
    rcases List.mem_cons.mp hu with rfl | hu
    · exact first
    · exact later u hu

theorem mem_nodes_joined {t : Trace} {c : Combinator} {children : List Trace} :
    t ∈ (joined c children).nodes ↔ t = joined c children ∨ ∃ u ∈ children, t ∈ u.nodes := by
  rw [nodes, List.mem_cons, nodesOf_eq_flatMap, List.mem_flatMap]

/-- The children that are kept are those up to and including the first deciding one. -/
theorem prunedUntil_eq_take (deciding : Bool) (children : List Trace) :
    prunedUntil deciding children =
      (children.take (children.findIdx (fun t => t.verdict == deciding) + 1)).map pruned := by
  induction children with
  | nil => rfl
  | cons t rest ih =>
    rw [prunedUntil, List.findIdx_cons, List.take_succ_cons, List.map_cons]
    by_cases decides : t.verdict = deciding
    · rw [if_pos decides, beq_iff_eq.mpr decides]
      rfl
    · rw [if_neg decides, beq_eq_false_iff_ne.mpr decides, ih]
      rfl

/-- A node without children that is still visited was there before. -/
theorem ended_mem_of_mem_pruned {t : Trace} {x : Logged Bool} (h : ended x ∈ t.pruned.nodes) :
    ended x ∈ t.nodes := by
  induction t with
  | ended outcome => exact h
  | joined c children ih =>
    rw [pruned, mem_nodes_joined] at h
    rcases h with root | ⟨u, hu, below⟩
    · cases root
    · rw [prunedUntil_eq_take] at hu
      obtain ⟨t, kept, rfl⟩ := List.mem_map.mp hu
      have ht := List.mem_of_mem_take kept
      exact mem_nodes_joined.mpr (Or.inr ⟨t, ht, ih t ht below⟩)

/-- What a run comes to that stops at deciding children. -/
def outcome (t : Trace) : Logged Bool := ⟨t.verdict, t.pruned.events⟩

end Trace

namespace Filter

open Trace

mutual

/-- The evaluation of a node at a level with all its children, the root being level 1. -/
def trace (o : Options) (r : Record) (level : Nat) (f : Filter) : Trace :=
  match o.exceeded? level with
  | some budget => .ended ⟨false, [.tooDeep level budget]⟩
  | none =>
    match f with
    | .leaf l => .ended (l.run o.naiveOffset r)
    | .combine c children => .joined c (traces o r (level + 1) children)
    | .unsupported reason _ => .ended ⟨false, [.nodeFails reason]⟩
termination_by structural f

def traces (o : Options) (r : Record) (level : Nat) (children : List Filter) : List Trace :=
  match children with
  | [] => []
  | f :: rest => trace o r level f :: traces o r level rest
termination_by structural children

end

variable {o : Options} {r : Record} {level : Nat}

theorem traces_eq_map (children : List Filter) :
    traces o r level children = children.map (trace o r level) := by
  induction children with
  | nil => rfl
  | cons f rest ih => rw [traces, List.map_cons, ih]

theorem trace_exceeded {budget : Nat} (h : o.exceeded? level = some budget) (f : Filter) :
    f.trace o r level = .ended ⟨false, [.tooDeep level budget]⟩ := by
  rw [trace.eq_def, h]

theorem trace_leaf (h : o.exceeded? level = none) (l : Leaf) :
    (leaf l).trace o r level = .ended (l.run o.naiveOffset r) := by
  rw [trace.eq_def, h]

theorem trace_combine (h : o.exceeded? level = none) (c : Combinator) (children : List Filter) :
    (combine c children).trace o r level =
      .joined c (children.map (trace o r (level + 1))) := by
  rw [trace.eq_def, h, ← traces_eq_map]

theorem trace_unsupported (h : o.exceeded? level = none) (reason : String) (raw : Json) :
    (unsupported reason raw).trace o r level = .ended ⟨false, [.nodeFails reason]⟩ := by
  rw [trace.eq_def, h]

/-- The run over children stops where their traces are cut off. -/
theorem runUntil_eq_prunedUntil (c : Combinator) {children : List Filter}
    (each : ∀ f ∈ children, f.run o r level = (f.trace o r level).outcome) :
    runUntil o r level c.deciding children =
      ⟨c.joins ((children.map (trace o r level)).map Trace.verdict),
        (prunedUntil c.deciding (children.map (trace o r level))).flatMap Trace.events⟩ := by
  induction children with
  | nil => cases c <;> rfl
  | cons f rest ih =>
    have later := ih fun g hg => each g (List.mem_cons_of_mem f hg)
    rw [runUntil, later, each f List.mem_cons_self]
    simp only [List.map_cons, Combinator.joins_cons, prunedUntil]
    rw [outcome, Logged.mk_bind]
    by_cases decides : (f.trace o r level).verdict = c.deciding
    · simp only [if_pos decides, List.flatMap_cons]
      rfl
    · simp only [if_neg decides, List.flatMap_cons]

/-- The run is what the trace comes to when it stops at deciding children. -/
theorem run_eq_outcome (f : Filter) (o : Options) (r : Record) (level : Nat) :
    f.run o r level = (f.trace o r level).outcome := by
  induction f, level using levelInduction o with
  | exceeded f level budget past => rw [run_exceeded past, trace_exceeded past]; rfl
  | unsupported reason raw level within =>
    rw [run_unsupported within, trace_unsupported within]
    rfl
  | leaf l level within =>
    rw [run_leaf within, trace_leaf within, outcome, Trace.pruned, events_ended, Trace.verdict]
  | combine c children level within ih =>
    rw [run_combine within, trace_combine within, outcome, Trace.pruned, events_joined,
      Trace.verdict, verdicts_eq_map]
    exact runUntil_eq_prunedUntil c ih

/-- The nodes that look at no children: those past the budget, leaves, and undecoded nodes. Levels
grow by one and none is opened past the budget, so the first level past it is the only one that is
ever reported. -/
theorem ended_cases {f : Filter} (reached : ∀ n, o.maxDepth = some n → level ≤ n.toNat + 1)
    {x : Logged Bool} (h : .ended x ∈ (f.trace o r level).nodes) :
    (∃ n, o.maxDepth = some n ∧ x = ⟨false, [.tooDeep (n.toNat + 1) n.toNat]⟩) ∨
    (∃ l, x = Leaf.run o.naiveOffset l r) ∨ ∃ reason, x = ⟨false, [.nodeFails reason]⟩ := by
  induction f, level using levelInduction o with
  | exceeded f level budget past =>
    obtain ⟨n, limited, rfl, below⟩ := Options.exceeded?_eq_some_iff.mp past
    have first : level = n.toNat + 1 := by
      have := reached n limited
      omega
    rw [trace_exceeded past, first] at h
    cases List.mem_singleton.mp h
    exact Or.inl ⟨n, limited, rfl⟩
  | leaf l level within =>
    rw [trace_leaf within] at h
    cases List.mem_singleton.mp h
    exact Or.inr (Or.inl ⟨l, rfl⟩)
  | unsupported reason raw level within =>
    rw [trace_unsupported within] at h
    cases List.mem_singleton.mp h
    exact Or.inr (Or.inr ⟨reason, rfl⟩)
  | combine c children level within ih =>
    rw [trace_combine within, mem_nodes_joined] at h
    rcases h with root | ⟨t, ht, below⟩
    · cases root
    · obtain ⟨f, hf, rfl⟩ := List.mem_map.mp ht
      have deeper : ∀ n, o.maxDepth = some n → level + 1 ≤ n.toNat + 1 := by
        intro n limited
        have := Options.exceeded?_eq_none_iff.mp within n limited
        omega
      exact ih f hf deeper below

theorem terse_of_ended {f : Filter} (reached : ∀ n, o.maxDepth = some n → level ≤ n.toNat + 1)
    {x : Logged Bool} (h : .ended x ∈ (f.trace o r level).nodes) : x.Terse := by
  rcases ended_cases reached h with ⟨n, _, rfl⟩ | ⟨l, rfl⟩ | ⟨reason, rfl⟩
  · exact .single _
  · exact l.terse_run _ r
  · exact .single _

/-- What a visited node logs is what an ended node of the whole trace logs. -/
theorem exists_ended_of_mem_events {f : Filter} {event : Event}
    (h : event ∈ (f.run o r level).events) :
    ∃ x, .ended x ∈ (f.trace o r level).nodes ∧ event ∈ x.events := by
  rw [run_eq_outcome] at h
  obtain ⟨t, visited, logged⟩ := List.mem_flatMap.mp h
  cases t with
  | ended x => exact ⟨x, ended_mem_of_mem_pruned visited, logged⟩
  | joined c children => cases logged

/-- A child that logs anything is false, and where false stops no child after it is looked at. -/
theorem terse_runUntil_false {children : List Filter}
    (each : ∀ f ∈ children, (f.run o r level).Terse) :
    (runUntil o r level false children).Terse := by
  induction children with
  | nil => exact .silent _
  | cons f rest ih =>
    have later := ih fun g hg => each g (List.mem_cons_of_mem f hg)
    have first := each f List.mem_cons_self
    rw [runUntil]
    generalize f.run o r level = x at first ⊢
    obtain ⟨verdict, events⟩ := x
    rw [Logged.mk_bind]
    cases verdict with
    | false =>
      rw [if_pos rfl]
      change Logged.Terse ⟨false, events ++ []⟩
      rw [List.append_nil]
      exact first
    | true =>
      have silent : events = [] := first.events_of_true rfl
      rw [if_neg (by decide), silent, List.nil_append]
      exact later

/-- Without an `or` the run ends with the first node that logs anything. -/
theorem terse_run (f : Filter) (no_or : ∀ entry ∈ f.nodes level, entry.2.kindName ≠ "or") :
    (f.run o r level).Terse := by
  induction f, level using levelInduction o with
  | exceeded f level budget past => rw [run_exceeded past]; exact .single _
  | unsupported reason raw level within => rw [run_unsupported within]; exact .single _
  | leaf l level within => rw [run_leaf within]; exact l.terse_run _ r
  | combine c children level within ih =>
    cases c with
    | or => exact absurd rfl (no_or _ (mem_nodes_self _ level))
    | and =>
      rw [run_combine within]
      apply terse_runUntil_false
      intro f hf
      have below := forall_nodes_of_child (P := fun g => g.kindName ≠ "or") no_or hf
      exact ih f hf below

/-- **Stopping early is faithful.** A run has the verdict that asking every child gives, and it logs
what that logs less the children after a deciding one. A visited node logs at most one event of its
own, and only if it is false itself. The level reported as too deep is always the first past the
budget. Without an `or`, a run logs at most one event, and only if the verdict is false. -/
theorem run_faithful (f : Filter) (o : Options) (r : Record) :
    ((f.run o r 1).value = (f.trace o r 1).verdict ∧
      (f.run o r 1).events = (f.trace o r 1).pruned.events) ∧
    (∀ t ∈ (f.trace o r 1).pruned.nodes, Logged.Terse ⟨t.verdict, t.own⟩) ∧
    (∀ depth budget, .tooDeep depth budget ∈ (f.run o r 1).events →
      o.maxDepth.map (·.toNat) = some budget ∧ depth = budget + 1) ∧
    ((∀ entry ∈ f.nodes 1, entry.2.kindName ≠ "or") → (f.run o r 1).Terse) := by
  have root : ∀ n, o.maxDepth = some n → 1 ≤ n.toNat + 1 := fun n _ => Nat.le_add_left 1 _
  refine ⟨?_, ?_, ?_, fun no_or => f.terse_run no_or⟩
  · rw [run_eq_outcome]
    exact ⟨rfl, rfl⟩
  · intro t visited
    cases t with
    | ended x => exact terse_of_ended root (ended_mem_of_mem_pruned visited)
    | joined c children => exact .silent _
  · intro depth budget logged
    obtain ⟨x, ended, here⟩ := exists_ended_of_mem_events logged
    rcases ended_cases root ended with ⟨n, limited, rfl⟩ | ⟨l, rfl⟩ | ⟨reason, rfl⟩
    · cases List.mem_singleton.mp here
      rw [limited]
      exact ⟨rfl, rfl⟩
    · exact absurd here (l.tooDeep_not_mem_events _ r depth budget)
    · cases List.mem_singleton.mp here

/-- Under a budget of two levels the first child of the third one is reported and ends the run, so
the undecoded node after it is not. -/
theorem too_deep_logged_once :
    ((∀ entry ∈ (Filter.and [.boolean "a" true, .and [.boolean "b" true],
          .unsupported "missing" .null]).nodes 1, entry.2.kindName ≠ "or") ∧
      .tooDeep 3 2 ∈ ((Filter.and [.boolean "a" true, .and [.boolean "b" true],
        .unsupported "missing" .null]).run ⟨some 2, 0⟩
          (Record.empty.insert "a" (.bool true)) 1).events) ∧
    (Options.maxDepth ⟨some 2, 0⟩).map (·.toNat) = some 2 ∧
    ((Filter.and [.boolean "a" true, .and [.boolean "b" true],
      .unsupported "missing" .null]).run ⟨some 2, 0⟩
        (Record.empty.insert "a" (.bool true)) 1).Terse := by
  have faithful := run_faithful (.and [.boolean "a" true, .and [.boolean "b" true],
    .unsupported "missing" .null]) ⟨some 2, 0⟩ (Record.empty.insert "a" (.bool true))
  have no_or : ∀ entry ∈ (Filter.and [.boolean "a" true, .and [.boolean "b" true],
      .unsupported "missing" .null]).nodes 1, entry.2.kindName ≠ "or" := by
    decide
  have logged : .tooDeep 3 2 ∈ ((Filter.and [.boolean "a" true, .and [.boolean "b" true],
      .unsupported "missing" .null]).run ⟨some 2, 0⟩
        (Record.empty.insert "a" (.bool true)) 1).events := by
    decide
  exact ⟨⟨no_or, logged⟩, (faithful.2.2.1 3 2 logged).1, faithful.2.2.2 no_or⟩

end Filter

end Sieve
