import Sieve.Proofs.Json.ReadWritten
import Sieve.Proofs.Record.Loading
import Sieve.Proofs.Leaf
import Sieve.Proofs.Verdict

/-!
What a missing field is worth. No leaf holds of a field that is absent, and no combinator turns a
verdict round, so a record gains matches with its fields and never loses any. The falsy values count
as absent, and they are the only ones that do.
-/

namespace Sieve

namespace Leaf

/-- The leaf that asks for exactly a value. -/
def asking (name : String) : FieldValue → Leaf
  | .text s => .string ⟨name, .eq, s⟩
  | .number x => .number ⟨name, .eq, x⟩
  | .bool b => .boolean ⟨name, .eq, b⟩
  | .date t => .date ⟨name, .eq, .native t⟩

theorem field_asking (name : String) (value : FieldValue) : (asking name value).field = name := by
  cases value <;> rfl

/-- Every value that counts equals itself. -/
theorem value_asking (name : String) {value : FieldValue} (counts : value.isFalsy = false)
    (offset : UtcOffset) : ((asking name value).onField offset (some value)).value = true := by
  cases value with
  | text s =>
    rw [FieldValue.isFalsy_text] at counts
    change (!isEmptyText s && s == s) = true
    rw [counts, beq_self_eq_true]
    rfl
  | number x =>
    rw [FieldValue.isFalsy_number] at counts
    change (!isZeroOrNaN x && x.same x) = true
    rw [isZeroOrNaN, Bool.or_eq_false_iff] at counts
    rw [isZeroOrNaN, Binary64.same, counts.1, counts.2, beq_self_eq_true]
    rfl
  | bool b => exact beq_self_eq_true b
  | date t => exact decide_eq_true rfl

end Leaf

namespace Filter

variable {o : Options} {r s : Record}

/-- A leaf that holds has found a value that counts, so it is enough to find these again. -/
theorem accepts_of_holding
    (found : ∀ name value, r.get? name = some value → value.isFalsy = false →
      ∃ held, s.get? name = some held ∧ value.Alike held)
    (f : Filter) (h : f.accepts o r = true) : f.accepts o s = true := by
  apply f.verdict_mono (fun _ within => within) ?_ h
  intro l _ holds
  obtain ⟨value, here, counts⟩ := Leaf.exists_of_value_run holds
  obtain ⟨held, there, alike⟩ := found l.field value here counts
  have same : l.run o.naiveOffset r = l.run o.naiveOffset s := by
    apply Leaf.run_of_alike
    rw [here, there]
    exact .some alike
  rw [← same]
  exact holds

theorem accepts_of_within (within : r.Within s) (f : Filter) (h : f.accepts o r = true) :
    f.accepts o s = true :=
  f.accepts_of_holding (fun name value here _ => within name value here) h

theorem accepts_without_falsy (chosen : String → Bool) (f : Filter) (o : Options) (r : Record) :
    f.accepts o (r.without fun name value => chosen name && value.isFalsy) = f.accepts o r := by
  rw [Bool.eq_iff_iff]
  constructor
  · exact f.accepts_of_within (r.without_within _)
  · apply accepts_of_holding
    intro name value here counts
    refine ⟨value, ?_, .refl value⟩
    rw [Record.get?_without, here, Option.filter_some, counts, Bool.and_false]
    rfl

theorem evaluate_asking (name : String) (value : FieldValue) (r : Record) :
    (leaf (.asking name value)).evaluate r =
      ((Leaf.asking name value).onField Options.default.naiveOffset (r.get? name)).value := by
  have unbounded : Options.default.exceeded? 1 = none := rfl
  rw [evaluate, accepts_eq_verdict, verdict_leaf unbounded, Leaf.run_eq_onField, Leaf.field_asking]

/-- **Falsy is absent.** No filter tells whether any of the falsy fields of a record are there,
under any options; and of each other field some filter does tell. -/
theorem falsy_counts_as_absent (r : Record) :
    (∀ (chosen : String → Bool) (f : Filter) (o : Options),
      f.accepts o (r.without fun name value => chosen name && value.isFalsy) = f.accepts o r) ∧
    ∀ name value, r.get? name = some value → value.isFalsy = false →
      ∃ f : Filter, f.evaluate r = true ∧
        f.evaluate (r.without fun other _ => other == name) = false := by
  refine ⟨fun chosen f o => accepts_without_falsy chosen f o r, fun name value here counts => ?_⟩
  refine ⟨leaf (.asking name value), ?_, ?_⟩
  · rw [evaluate_asking, here]
    exact Leaf.value_asking name counts _
  · have gone : (r.without fun other _ => other == name).get? name = none := by
      rw [Record.get?_without, here, Option.filter_some, beq_self_eq_true]
      rfl
    rw [evaluate_asking, gone]
    rfl

/-- Empty text and not-a-number may go, and false may not. -/
theorem false_no_absence :
    (Filter.or [.string "t" .eq "", .number "n" .lte .zero]).accepts .default
        ((((Record.empty.insert "t" (.text "")).insert "n" (.number .nan)).insert "b"
          (.bool false)).without fun _ value => true && value.isFalsy) =
      (Filter.or [.string "t" .eq "", .number "n" .lte .zero]).accepts .default
        (((Record.empty.insert "t" (.text "")).insert "n" (.number .nan)).insert "b"
          (.bool false)) ∧
    ((((Record.empty.insert "t" (.text "")).insert "n" (.number .nan)).insert "b"
        (.bool false)).get? "b" = some (.bool false) ∧ FieldValue.isFalsy (.bool false) = false) ∧
    ∃ f : Filter,
      f.evaluate (((Record.empty.insert "t" (.text "")).insert "n" (.number .nan)).insert "b"
        (.bool false)) = true ∧
      f.evaluate ((((Record.empty.insert "t" (.text "")).insert "n" (.number .nan)).insert "b"
        (.bool false)).without fun other _ => other == "b") = false := by
  have absent := falsy_counts_as_absent (((Record.empty.insert "t" (.text "")).insert "n"
    (.number .nan)).insert "b" (.bool false))
  have here : (((Record.empty.insert "t" (.text "")).insert "n" (.number .nan)).insert "b"
      (.bool false)).get? "b" = some (.bool false) := by
    rw [Record.get?_insert, if_pos rfl]
  exact ⟨absent.1 (fun _ => true) _ _, ⟨here, rfl⟩, absent.2 "b" _ here rfl⟩

/-- **More fields never lose a match.** A record that holds all the fields of another one is matched
wherever that one is. So no record gets matched by taking fields away from it, nor by loading it
from a text with null in place of some of its values. -/
theorem more_fields_never_lose (f : Filter) (o : Options) :
    (∀ r s : Record, r.Within s → f.accepts o r = true → f.accepts o s = true) ∧
    (∀ (r : Record) (gone : String → FieldValue → Bool),
      f.accepts o r = false → f.accepts o (r.without gone) = false) ∧
    ∀ (chosen : String → Bool) (text nulled : String) (r s : Record),
      Json.ofText nulled = (Json.ofText text).map (Json.nulling chosen) →
      Record.ofText text = .ok r → Record.ofText nulled = .ok s →
      f.accepts o r = false → f.accepts o s = false := by
  have excluded {r s : Record} (within : s.Within r) (h : f.accepts o r = false) :
      f.accepts o s = false := by
    rw [← Bool.not_eq_true] at h ⊢
    exact fun holds => h (f.accepts_of_within within holds)
  refine ⟨fun r s within h => f.accepts_of_within within h,
    fun r gone h => excluded (r.without_within gone) h, ?_⟩
  intro chosen text nulled r s document loaded loaded_nulled h
  obtain ⟨v, read, taken⟩ := Record.ofJson_of_ofText loaded
  obtain ⟨w, read_nulled, taken_nulled⟩ := Record.ofJson_of_ofText loaded_nulled
  rw [read, read_nulled] at document
  cases document
  exact excluded (Record.within_of_nulling taken taken_nulled) h

/-- A record with one field more, and a record read from a text with null in place of a value. -/
theorem field_gained_and_field_nulled :
    ((Record.empty.insert "a" (.bool true)).Within
        ((Record.empty.insert "a" (.bool true)).insert "b" (.text "")) ∧
      (Filter.or [.boolean "a" true, .string "b" .eq "x"]).accepts .default
        (Record.empty.insert "a" (.bool true)) = true ∧
      (Filter.or [.boolean "a" true, .string "b" .eq "x"]).accepts .default
        ((Record.empty.insert "a" (.bool true)).insert "b" (.text "")) = true) ∧
    ((Filter.boolean "a" false).accepts .default (Record.empty.insert "a" (.bool true)) = false ∧
      (Filter.boolean "a" false).accepts .default
        ((Record.empty.insert "a" (.bool true)).without fun _ _ => true) = false) ∧
    (Json.ofText "\x7b\"a\":null\x7d" =
        (Json.ofText "\x7b\"a\":true\x7d").map (Json.nulling fun name => name == "a") ∧
      Record.ofText "\x7b\"a\":true\x7d" = .ok (Record.empty.insert "a" (.bool true)) ∧
      Record.ofText "\x7b\"a\":null\x7d" = .ok .empty ∧
      (Filter.boolean "a" false).accepts .default .empty = false) := by
  have within : (Record.empty.insert "a" (.bool true)).Within
      ((Record.empty.insert "a" (.bool true)).insert "b" (.text "")) := by
    intro name value found
    refine ⟨value, ?_, .refl value⟩
    rw [Record.get?_insert]
    split
    case isTrue same =>
      subst same
      cases found
    case isFalse => exact found
  have matched : (Filter.or [.boolean "a" true, .string "b" .eq "x"]).accepts .default
      (Record.empty.insert "a" (.bool true)) = true := by
    decide
  have excluded : (Filter.boolean "a" false).accepts .default
      (Record.empty.insert "a" (.bool true)) = false := by
    decide
  have document : Json.ofText "\x7b\"a\":null\x7d" =
      (Json.ofText "\x7b\"a\":true\x7d").map (Json.nulling fun name => name == "a") := by
    have whole : Json.ofText "\x7b\"a\":true\x7d" = .ok (.object [("a", .bool true)]) := by
      have written : (Json.object [("a", .bool true)]).render = "\x7b\"a\":true\x7d" := by
        decide +kernel
      rw [← written, Json.ofText_render_eq_ok_iff]
      rfl
    have without : Json.ofText "\x7b\"a\":null\x7d" = .ok (.object [("a", .null)]) := by
      have written : (Json.object [("a", .null)]).render = "\x7b\"a\":null\x7d" := by
        decide +kernel
      rw [← written, Json.ofText_render_eq_ok_iff]
      rfl
    rw [whole, without]
    rfl
  have loaded : Record.ofText "\x7b\"a\":true\x7d" =
      .ok (Record.empty.insert "a" (.bool true)) := by
    decide +kernel
  have nulled : Record.ofText "\x7b\"a\":null\x7d" = .ok .empty := by decide +kernel
  have gained := (more_fields_never_lose (.or [.boolean "a" true, .string "b" .eq "x"])
    .default).1 _ _ within matched
  have lost := (more_fields_never_lose (.boolean "a" false) .default).2
  exact ⟨⟨within, matched, gained⟩, ⟨excluded, lost.1 _ _ excluded⟩, document, loaded, nulled,
    lost.2 _ _ _ _ _ document loaded nulled excluded⟩

end Filter

end Sieve
