import Sieve.Proofs.Leaf
import Sieve.Proofs.Verdict

/-!
What a filter reads. Its run on a record, the log included, depends on the fields that its leaves
compare and on nothing else in the record, so a record may be cut down to the referenced fields
before it is filtered.
-/

namespace Sieve.Filter

variable {o : Options} {r s : Record} {level : Nat}

theorem mem_referencedFields {name : String} {f : Filter} :
    name ∈ f.referencedFields ↔ ∃ l ∈ f.leaves, l.field = name := by
  rw [referencedFields, Assoc.mem_names_ofList, List.map_map, List.mem_map]
  rfl

theorem mem_referencedFields_iff_field? {name : String} {f : Filter} (level : Nat) :
    name ∈ f.referencedFields ↔ ∃ entry ∈ f.nodes level, entry.2.field? = some name := by
  rw [mem_referencedFields]
  constructor
  · rintro ⟨l, hl, rfl⟩
    obtain ⟨entry, mem, equal⟩ := mem_leaves_iff.mp hl
    exact ⟨entry, mem, by rw [equal]; rfl⟩
  · rintro ⟨⟨level', node⟩, mem, compares⟩
    cases node with
    | leaf l => exact ⟨l, mem_leaves_iff.mpr ⟨_, mem, rfl⟩, Option.some.inj compares⟩
    | combine c children => cases compares
    | unsupported reason raw => cases compares

theorem sorted_referencedFields (f : Filter) : f.referencedFields.Pairwise (· < ·) :=
  List.pairwise_map.mpr (Assoc.sorted_ofList _)

/-- A filter whose leaves run the same on two records runs the same on both. -/
theorem run_congr (f : Filter)
    (each : ∀ l ∈ f.leaves, l.run o.naiveOffset r = l.run o.naiveOffset s) (level : Nat) :
    f.run o r level = f.run o s level :=
  f.run_of_leaves rfl each level

/-- **Nothing else is read.** Records that hold the same values, or equal ones, under every name
that a filter lists run the same under all options, in the verdict as in every event; and the names
it lists are those that its leaves compare, in their order and each once. -/
theorem run_reads_referenced (f : Filter) :
    (∀ o r s, (∀ name ∈ f.referencedFields,
        Option.Rel FieldValue.Alike (r.get? name) (s.get? name)) → f.run o r 1 = f.run o s 1) ∧
    (∀ name, name ∈ f.referencedFields ↔ ∃ entry ∈ f.nodes 1, entry.2.field? = some name) ∧
    f.referencedFields.Pairwise (· < ·) := by
  refine ⟨fun o r s agree => ?_, fun name => mem_referencedFields_iff_field? 1,
    f.sorted_referencedFields⟩
  apply f.run_congr
  intro l hl
  have agree_here := agree l.field (mem_referencedFields.mpr ⟨l, hl, rfl⟩)
  exact Leaf.run_of_alike agree_here

/-- A zero of the other sign under a name that a date leaf compares, and one more field: neither the
verdict nor the mismatch that is logged tells the records apart. -/
theorem zero_sign_and_unread_field_unseen :
    (∀ name ∈ (Filter.or [.date "n" .after (.text "2024"), .string "t" .eq "x"]).referencedFields,
      Option.Rel FieldValue.Alike
        (((Record.empty.insert "n" (.number .zero)).insert "t" (.text "x")).get? name)
        ((((Record.empty.insert "n" (.number Binary64.zero.neg)).insert "t" (.text "x")).insert "u"
          (.bool true)).get? name)) ∧
    (Filter.or [.date "n" .after (.text "2024"), .string "t" .eq "x"]).run .default
        ((Record.empty.insert "n" (.number .zero)).insert "t" (.text "x")) 1 =
      (Filter.or [.date "n" .after (.text "2024"), .string "t" .eq "x"]).run .default
        (((Record.empty.insert "n" (.number Binary64.zero.neg)).insert "t" (.text "x")).insert "u"
          (.bool true)) 1 := by
  have agree : ∀ name ∈ ["n", "t"], Option.Rel FieldValue.Alike
      (((Record.empty.insert "n" (.number .zero)).insert "t" (.text "x")).get? name)
      ((((Record.empty.insert "n" (.number Binary64.zero.neg)).insert "t" (.text "x")).insert "u"
        (.bool true)).get? name) := by
    have zeros : FieldValue.Alike (.number .zero) (.number Binary64.zero.neg) := Or.inr (by decide)
    have texts := FieldValue.Alike.refl (.text "x")
    intro name hname
    simp only [List.mem_cons, List.not_mem_nil, or_false] at hname
    rcases hname with rfl | rfl
    · simpa [Record.get?_insert] using Option.Rel.some zeros
    · simpa [Record.get?_insert] using Option.Rel.some texts
  have names : (Filter.or [.date "n" .after (.text "2024"), .string "t" .eq "x"]).referencedFields =
      ["n", "t"] := by decide +kernel
  rw [← names] at agree
  exact ⟨agree, (run_reads_referenced _).1 _ _ _ agree⟩

end Sieve.Filter
