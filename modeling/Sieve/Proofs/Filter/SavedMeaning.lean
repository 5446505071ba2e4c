import Sieve.Proofs.DepthBudget
import Sieve.Proofs.Filter.Written
import Sieve.Proofs.Leaf
import Sieve.Proofs.Timestamp

/-!
What a saved filter means when it is parsed again. The parsed filter need not be the one that was
saved: a native date comes back as text, and the reader of numbers only comes near some of them.
What matters is whether a comparison can tell, and whether a node that was kept undecoded turns into
one that matches.
-/

namespace Sieve

open Json

namespace Leaf

/-- Writing the literal loses nothing that a comparison could tell: a number is read back as one of
the same value, if at all, and a native date lies in a year of four digits. -/
def Lasts : Leaf → Prop
  | .string _ => True
  | .number c =>
    c.literal.isFinite = true → ∀ x, c.literal.reread? = some x → x.same c.literal = true
  | .boolean _ => True
  | .date c => ∀ t, c.literal = .native t → 0 ≤ t.date.year ∧ t.date.year ≤ 9999

theorem run_reread {l m : Leaf} {budget : Nat} {value : Json} (lasts : l.Lasts)
    (read : reread budget l.literalJson = .ok value) (literal : l.withLiteral? value = some m)
    (offset : UtcOffset) (r : Record) : m.run offset r = l.run offset r := by
  cases l with
  | string c =>
    cases read
    cases literal
    rfl
  | boolean c =>
    cases read
    cases literal
    rfl
  | date c =>
    obtain ⟨field, operation, d⟩ := c
    cases d with
    | text s =>
      cases read
      cases literal
      rfl
    | native t =>
      cases read
      cases literal
      have instant : instantOf offset (.text t.render) = instantOf offset (.native t) :=
        t.instant_of_render (lasts t rfl) offset
      exact run_date_of_instant instant r
  | number c =>
    rw [withLiteral?, Option.map_eq_some_iff] at literal
    obtain ⟨x, given, rfl⟩ := literal
    by_cases finite : c.literal.isFinite = true
    · have back := reread_ofBinary64 finite budget
      rw [literalJson] at read
      rw [read] at back
      have same := lasts finite x (back.symm.trans given)
      obtain ⟨x_number, literal_number, rank⟩ := Binary64.same_iff.mp same
      have holds (value : Binary64) : c.operation.holds value x = c.operation.holds value c.literal :=
        NumberOperation.holds_congr rfl rfl (x_number.trans literal_number.symm) rank c.operation
      simp only [run, runNumber, holds]
    · rw [literalJson, ofBinary64, dif_neg finite] at read
      cases read
      cases given

end Leaf

namespace Filter

/-- The node does not by itself keep a filter from meaning the same once it is saved. An undecoded
node is saved as it came, so it must not have come as the text of a filter that matches anything. -/
def Lasts : Filter → Prop
  | .leaf l => l.Lasts
  | .combine _ _ => True
  | .unsupported _ raw => ∀ g, parse raw.render = .ok g → ∀ o r, g.accepts o r = false

theorem render_unsupported (reason : String) (raw : Json) :
    (unsupported reason raw).render = raw.render := rfl

/-- The node of a leaf either is a leaf again, whose verdict is the same, or it was not decoded. -/
theorem verdict_reread_leaf {l : Leaf} (lasts : l.Lasts) {budget : Nat} {v : Json}
    (read : reread budget (leaf l).written = .ok v)
    (decoded : (ofJson v).firstUnsupported? = none) (o : Options) (r : Record) (level : Nat) :
    (ofJson v).verdict o r level = (leaf l).verdict o r level := by
  cases budget with
  | zero => cases read
  | succ budget =>
    rw [written, l.reread_written, map_eq_ok_iff] at read
    obtain ⟨value, read, rfl⟩ := read
    have made := ofJson_members l value
    cases literal : l.withLiteral? value with
    | none =>
      rw [literal] at made
      obtain ⟨reason, made⟩ := made
      rw [made] at decoded
      cases decoded
    | some m =>
      rw [literal] at made
      change ofJson (.object (l.members value)) = leaf m at made
      rw [made]
      cases reached : o.exceeded? level with
      | some budget => rw [verdict_exceeded reached, verdict_exceeded reached]
      | none => rw [verdict_leaf reached, verdict_leaf reached, Leaf.run_reread lasts read literal]

/-- The induction goes over the saved filter, and what was read decides which node stands where: a
leaf in the place of a leaf, a combinator with as many children, or anything in the place of an
undecoded node. -/
theorem verdict_reread {f : Filter} {root budget : Nat} {v : Json}
    (lasts : ∀ entry ∈ f.nodes root, entry.2.Lasts) (within : budget ≤ bracketBudget)
    (read : reread budget f.written = .ok v) (decoded : (ofJson v).firstUnsupported? = none)
    (o : Options) (r : Record) (level : Nat) :
    (ofJson v).verdict o r level = f.verdict o r level := by
  induction f generalizing root budget v level with
  | leaf l =>
    have lasts : l.Lasts := lasts _ (mem_nodes_self (leaf l) root)
    exact verdict_reread_leaf lasts read decoded o r level
  | unsupported reason raw =>
    have lasts : ∀ g, parse raw.render = .ok g → ∀ o r, g.accepts o r = false :=
      lasts _ (mem_nodes_self (unsupported reason raw) root)
    -- The JSON was read under the brackets of its ancestors; alone it is read all the more.
    have read : reread bracketBudget (unsupported reason raw).written = .ok v :=
      reread_mono read within
    have parsed := parse_render_of_decoded read decoded
    rw [render_unsupported] at parsed
    rw [verdict_unsupported, verdict_of_never (lasts _ parsed)]
  | combine c children ih =>
    match budget with
    | 0 => cases read
    | 1 => rw [reread_written_combine_one] at read; cases read
    | budget + 2 =>
      rw [reread_written_combine, map_eq_ok_iff] at read
      obtain ⟨values, read, rfl⟩ := read
      rw [ofJson_combine] at decoded ⊢
      rw [firstUnsupported?, firstUnsupportedOf?_eq_none_iff] at decoded
      cases reached : o.exceeded? level with
      | some budget => rw [verdict_exceeded reached, verdict_exceeded reached]
      | none =>
        rw [verdict_combine reached, verdict_combine reached, List.map_map]
        congr 1
        refine map_eq_map_of_mapM read fun f hf v hv read => ?_
        have decoded : (ofJson v).firstUnsupported? = none := decoded _ (List.mem_map_of_mem hv)
        exact ih f hf (forall_nodes_of_child lasts hf) (by omega) read decoded (level + 1)

/-- **Saving keeps the meaning.** Whatever filter the text of a filter is parsed as, it has the same
verdict on every record under all options, if numbers are read back with their value, native dates
lie in years of four digits, and no undecoded node holds the text of a filter that could match. -/
theorem accepts_of_parse_render (f : Filter) (lasts : ∀ entry ∈ f.nodes 1, entry.2.Lasts)
    (g : Filter) (parsed : parse f.render = .ok g) (o : Options) (r : Record) :
    g.accepts o r = f.accepts o r := by
  obtain ⟨v, read, rfl, decoded⟩ := exists_reread_of_parse_render parsed
  exact verdict_reread lasts (Nat.le_refl _) read decoded o r 1

/-- The verdict of the filter that the text of this one is parsed as. -/
def savedVerdict? (f : Filter) (o : Options) (r : Record) : Option Bool :=
  match parse f.render with
  | .ok g => some (g.accepts o r)
  | .error _ => none

theorem exists_of_savedVerdict? {f : Filter} {o : Options} {r : Record} {verdict : Bool}
    (h : f.savedVerdict? o r = some verdict) :
    ∃ g, parse f.render = .ok g ∧ g.accepts o r = verdict := by
  rw [savedVerdict?] at h
  cases parsed : parse f.render with
  | error error => rw [parsed] at h; cases h
  | ok g =>
    rw [parsed] at h
    exact ⟨g, rfl, Option.some.inj h⟩

/-- Half a second into the leap second at the end of 2016. -/
def inLeapSecond : Timestamp := ⟨1483228799, 1500000000, by decide, by decide, by decide⟩

/-- The first moment of the year 10000. -/
def yearTenThousand : Timestamp := ⟨253402300800, 0, by decide, by decide, by decide⟩

/-- A leap second and a number that is read back, under one `or`. -/
theorem leap_second_and_number_last :
    ∃ g, parse (Filter.or [.date "d" .before (.native inLeapSecond),
        .number "n" .gt ⟨0x4032000000000000⟩]).render = .ok g ∧
      g.accepts .default (Record.empty.insert "d" (.text "2016-12-31")) =
        (Filter.or [.date "d" .before (.native inLeapSecond),
          .number "n" .gt ⟨0x4032000000000000⟩]).accepts .default
          (Record.empty.insert "d" (.text "2016-12-31")) := by
  have verdict : savedVerdict? (.or [.date "d" .before (.native inLeapSecond),
      .number "n" .gt ⟨0x4032000000000000⟩]) .default
      (Record.empty.insert "d" (.text "2016-12-31")) = some true := by
    decide +kernel
  obtain ⟨g, parsed, _⟩ := exists_of_savedVerdict? verdict
  refine ⟨g, parsed, accepts_of_parse_render _ ?_ g parsed _ _⟩
  have year : 0 ≤ inLeapSecond.date.year ∧ inLeapSecond.date.year ≤ 9999 := by decide +kernel
  have eighteen : (⟨0x4032000000000000⟩ : Binary64).reread? = some ⟨0x4032000000000000⟩ := by
    decide +kernel
  simp only [Filter.or, Filter.number, Filter.date, nodes, nodesOf, List.cons_append,
    List.nil_append, List.forall_mem_cons]
  refine ⟨trivial, ?_, ?_, fun _ h => absurd h List.not_mem_nil⟩
  · intro t native
    cases native
    exact year
  · intro _ x back
    rw [eighteen] at back
    cases back
    decide

/-- Three filters whose verdict changes: a number that the reader only comes near, a date whose year
takes five digits, and an undecoded node that holds an `and` without children. -/
theorem meaning_lost_in_saving :
    ((Filter.number "n" .eq ⟨0x44dfc3842bd1f072⟩).accepts .default
        (Record.empty.insert "n" (.number ⟨0x44dfc3842bd1f072⟩)) = true ∧
      ∃ g, parse (Filter.number "n" .eq ⟨0x44dfc3842bd1f072⟩).render = .ok g ∧
        g.accepts .default (Record.empty.insert "n" (.number ⟨0x44dfc3842bd1f072⟩)) = false) ∧
    ((Filter.date "d" .before (.native yearTenThousand)).accepts .default
        (Record.empty.insert "d" (.text "2024")) = true ∧
      ∃ g, parse (Filter.date "d" .before (.native yearTenThousand)).render = .ok g ∧
        g.accepts .default (Record.empty.insert "d" (.text "2024")) = false) ∧
    ((Filter.unsupported "missing" (.object [("filters", .array []),
          ("type", .string "and")])).accepts .default .empty = false ∧
      ∃ g, parse (Filter.unsupported "missing" (.object [("filters", .array []),
          ("type", .string "and")])).render = .ok g ∧ g.accepts .default .empty = true) := by
  refine ⟨⟨?number, ?near⟩, ⟨?date, ?unread⟩, ⟨?undecoded, ?decoded⟩⟩
  case number => decide +kernel
  case near => exact exists_of_savedVerdict? (by decide +kernel)
  case date => decide +kernel
  case unread => exact exists_of_savedVerdict? (by decide +kernel)
  case undecoded => decide +kernel
  case decoded => exact exists_of_savedVerdict? (by decide +kernel)

end Filter

end Sieve
