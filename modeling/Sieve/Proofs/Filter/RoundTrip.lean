import Sieve.Proofs.Filter.Written

/-!
Filters that come back out of their own text. A combinator opens two brackets and a leaf one, so the
bracket that is one too many is the second one of a combinator on level 64, wherever the leaves
stand and whether or not the combinator has children.
-/

namespace Sieve

open Json

/-- The literal comes back out of its own text. A native date never does, being written as text. -/
def Leaf.Returns : Leaf → Prop
  | .string _ => True
  | .number c => c.literal.isFinite = true ∧ c.literal.reread? = some c.literal
  | .boolean _ => True
  | .date c => ∃ s, c.literal = .text s

theorem Leaf.reread_literal {l : Leaf} (h : l.Returns) (budget : Nat) :
    ∃ value, reread budget l.literalJson = .ok value ∧ l.withLiteral? value = some l := by
  cases l with
  | string c => exact ⟨.string c.literal, rfl, rfl⟩
  | boolean c => exact ⟨.bool c.literal, rfl, rfl⟩
  | date c =>
    obtain ⟨field, operation, literal⟩ := c
    obtain ⟨s, rfl⟩ := h
    exact ⟨.string s, rfl, rfl⟩
  | number c =>
    obtain ⟨finite, back⟩ := h
    rw [← reread_ofBinary64 finite budget] at back
    obtain ⟨value, read, literal⟩ := Option.bind_eq_some_iff.mp back
    refine ⟨value, ?_, by rw [withLiteral?, literal]; rfl⟩
    rw [literalJson]
    cases h : reread budget (ofBinary64 c.literal) with
    | ok w => rw [h] at read; cases read; rfl
    | error cause => rw [h] at read; cases read

namespace Filter

/-- The node does not by itself keep a filter from coming back out of its text. -/
def Returns : Filter → Prop
  | .leaf l => l.Returns
  | .combine _ _ => True
  | .unsupported _ _ => False

mutual

/-- The number of combinators on the way down that has most of them. -/
def combinators : Filter → Nat
  | .combine _ children => 1 + mostCombinators children
  | .leaf _ => 0
  | .unsupported _ _ => 0
termination_by structural f => f

def mostCombinators : List Filter → Nat
  | [] => 0
  | f :: rest => max (combinators f) (mostCombinators rest)
termination_by structural fs => fs

end

theorem mostCombinators_le_iff {children : List Filter} {k : Nat} :
    mostCombinators children ≤ k ↔ ∀ f ∈ children, f.combinators ≤ k := by
  induction children with
  | nil => simp [mostCombinators]
  | cons f rest ih => rw [mostCombinators, Nat.max_le, ih, List.forall_mem_cons]

/-- The levels of the combinators of a filter go as deep as the count says. -/
theorem combinators_le_iff (f : Filter) (root k : Nat) :
    f.combinators ≤ k ↔
      ∀ level c children, (level, combine c children) ∈ f.nodes root → level < root + k := by
  induction f generalizing root k with
  | leaf l => simp [combinators, nodes]
  | unsupported reason raw => simp [combinators, nodes]
  | combine c children ih =>
    rw [combinators]
    constructor
    · intro few level d grandchildren h
      rcases mem_nodes_combine.mp h with here | ⟨f, hf, below⟩
      · cases here
        omega
      · have fewer : mostCombinators children ≤ k - 1 := by omega
        have := (ih f hf (root + 1) (k - 1)).mp (mostCombinators_le_iff.mp fewer f hf) level d
          grandchildren below
        omega
    · intro above
      have root_above : root < root + k :=
        above root c children (mem_nodes_combine.mpr (Or.inl rfl))
      have fewer : mostCombinators children ≤ k - 1 := by
        refine mostCombinators_le_iff.mpr fun f hf => ?_
        refine (ih f hf (root + 1) (k - 1)).mpr fun level d grandchildren below => ?_
        have := above level d grandchildren (mem_nodes_combine.mpr (Or.inr ⟨f, hf, below⟩))
        omega
      omega

variable {level k : Nat}

/-- With two brackets for every combinator on the way and one for a leaf at its end, the filter is
read back whole. -/
theorem reread_written {f : Filter} (returns : ∀ entry ∈ f.nodes level, entry.2.Returns)
    (few : f.combinators ≤ k) :
    ∃ v, reread (2 * k + 1) f.written = .ok v ∧ ofJson v = f := by
  induction f generalizing level k with
  | unsupported reason raw => exact (returns _ (mem_nodes_self _ level)).elim
  | leaf l =>
    have returns : l.Returns := returns _ (mem_nodes_self (leaf l) level)
    obtain ⟨value, read, literal⟩ := Leaf.reread_literal returns (2 * k)
    have decoded := ofJson_members l value
    rw [literal] at decoded
    exact ⟨_, by rw [written, l.reread_written, read]; rfl, decoded⟩
  | combine c children ih =>
    rw [combinators] at few
    obtain ⟨k, rfl⟩ := Nat.exists_eq_add_of_le (show 1 ≤ k by omega)
    have fewer : mostCombinators children ≤ k := by omega
    have each : ∀ f ∈ children, ∃ v, reread (2 * k + 1) f.written = .ok v ∧ ofJson v = f :=
      fun f hf => ih f hf (forall_nodes_of_child returns hf) (mostCombinators_le_iff.mp fewer f hf)
    obtain ⟨values, read, decoded⟩ := exists_mapM_ok each
    refine ⟨.object (c.members values), ?_, by rw [ofJson_combine, decoded]⟩
    rw [show 2 * (1 + k) + 1 = 2 * k + 1 + 2 by omega, reread_written_combine, read]
    rfl

/-- A combinator more than that is one bracket too many. Which leaf or which sibling comes before it
does not matter, since those all read back. -/
theorem reread_written_tooDeep {f : Filter}
    (returns : ∀ entry ∈ f.nodes level, entry.2.Returns) (many : k < f.combinators) :
    reread (2 * k + 1) f.written = .error .tooDeep := by
  induction f generalizing level k with
  | unsupported reason raw => exact (returns _ (mem_nodes_self _ level)).elim
  | leaf l =>
    rw [combinators] at many
    omega
  | combine c children ih =>
    cases k with
    | zero => exact reread_written_combine_one c children
    | succ k =>
      have more : ¬mostCombinators children ≤ k := by
        rw [combinators] at many
        omega
      have each : ∀ f ∈ children, (∃ v, reread (2 * k + 1) f.written = .ok v) ∨
          reread (2 * k + 1) f.written = .error .tooDeep := by
        intro f hf
        by_cases few : f.combinators ≤ k
        · obtain ⟨v, read, _⟩ := reread_written (forall_nodes_of_child returns hf) few
          exact Or.inl ⟨v, read⟩
        · exact Or.inr (ih f hf (forall_nodes_of_child returns hf) (by omega))
      have failed : ∃ f ∈ children, reread (2 * k + 1) f.written = .error .tooDeep := by
        rw [mostCombinators_le_iff] at more
        push Not at more
        obtain ⟨f, hf, deep⟩ := more
        exact ⟨f, hf, ih f hf (forall_nodes_of_child returns hf) (by omega)⟩
      rw [show 2 * (k + 1) + 1 = 2 * k + 1 + 2 by omega, reread_written_combine,
        mapM_error each failed]
      rfl

theorem firstUnsupported?_of_returns {f : Filter}
    (returns : ∀ entry ∈ f.nodes level, entry.2.Returns) : f.firstUnsupported? = none := by
  induction f generalizing level with
  | leaf l => rfl
  | unsupported reason raw => exact (returns _ (mem_nodes_self _ level)).elim
  | combine c children ih =>
    rw [firstUnsupported?, firstUnsupportedOf?_eq_none_iff]
    intro f hf
    exact ih f hf (forall_nodes_of_child returns hf)

/-- **The round trip through text.** A filter whose literals come back out of their own text is
parsed from its text as it was, strictly and leniently, if every combinator stands above level 64. A
combinator on that level or below it, with or without children, makes the text too deep for either
parser, and nothing else does. -/
theorem parse_render (f : Filter) (returns : ∀ entry ∈ f.nodes 1, entry.2.Returns) :
    ((∀ level c children, (level, combine c children) ∈ f.nodes 1 → level < 64) →
      parse f.render = .ok f ∧ parseLenient f.render = .ok f) ∧
    ((∃ level c children, (level, combine c children) ∈ f.nodes 1 ∧ 64 ≤ level) →
      ∃ place, parse f.render = .error (.invalidJson (Fault.message ⟨.tooDeep, some place⟩)) ∧
        parseLenient f.render =
          .error (.invalidJson (Fault.message ⟨.tooDeep, some place⟩))) := by
  -- Of the 127 brackets, 63 combinators take two each, and one is left for a leaf below them.
  have levels := combinators_le_iff f 1 63
  constructor
  · intro shallow
    obtain ⟨v, read, decoded⟩ := reread_written returns (levels.mpr shallow)
    have whole : (ofJson v).firstUnsupported? = none := by
      rw [decoded]
      exact firstUnsupported?_of_returns returns
    have strict := parse_render_of_decoded read whole
    have lenient := parseLenient_render read
    rw [decoded] at strict lenient
    exact ⟨strict, lenient⟩
  · rintro ⟨level, c, children, here, deep⟩
    have many : 63 < f.combinators := by
      by_contra few
      have := levels.mp (by omega) level c children here
      omega
    exact parse_render_error (reread_written_tooDeep returns many)

/-- An escaped name, a number written with a needless fraction and an empty combinator come back; 64
combinators in one another are too deep. -/
theorem mixed_and_deep_parse_render :
    parse (Filter.or [.string "na\"me" .eq "é\n", .number "n" .gte ⟨0x4032000000000000⟩,
        .date "d" .before (.text "2024"), .and []]).render =
      .ok (.or [.string "na\"me" .eq "é\n", .number "n" .gte ⟨0x4032000000000000⟩,
        .date "d" .before (.text "2024"), .and []]) ∧
    ∃ place, parse (Nat.repeat (fun f => Filter.or [f]) 63 (.and [])).render =
      .error (.invalidJson (Fault.message ⟨.tooDeep, some place⟩)) := by
  constructor
  · have eighteen : (⟨0x4032000000000000⟩ : Binary64).isFinite = true ∧
        (⟨0x4032000000000000⟩ : Binary64).reread? = some ⟨0x4032000000000000⟩ := by
      decide +kernel
    refine ((parse_render _ ?_).1 ?_).1
    · simp only [Filter.or, Filter.and, Filter.string, Filter.number, Filter.date, nodes, nodesOf,
        List.cons_append, List.nil_append, List.append_nil, List.forall_mem_cons]
      exact ⟨trivial, trivial, eighteen, ⟨"2024", rfl⟩, trivial,
        fun _ h => absurd h List.not_mem_nil⟩
    · intro level c children h
      simp only [Filter.or, Filter.and, Filter.string, Filter.number, Filter.date, nodes, nodesOf,
        List.cons_append, List.nil_append, List.append_nil, List.mem_cons, Prod.mk.injEq,
        List.not_mem_nil, or_false] at h
      omega
  · obtain ⟨place, strict, _⟩ :=
      (parse_render (Nat.repeat (fun f => Filter.or [f]) 63 (.and [])) (by
        simp [Nat.repeat, Filter.or, Filter.and, nodes, nodesOf, Filter.Returns])).2
      ⟨64, .and, [], List.mem_of_getElem? (show _[63]? = _ from rfl), Nat.le_refl 64⟩
    exact ⟨place, strict⟩

end Filter

end Sieve
