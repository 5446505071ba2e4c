import Sieve.Proofs.Filter.Place
import Sieve.Proofs.Filter.Written

/-!
The ways to take a filter from a text. Strict and lenient parsing read the whole text before they
look at the filter; reading a filter inside other data looks at the filter before what follows it.
So they may refuse a text for different reasons, but they never disagree on a filter.
-/

namespace Sieve.Filter

open Json

variable {text : String} {f : Filter}

/-- Where lenient parsing fails there is no value to begin with, or one with something after it. In
the second case reading may refuse the filter before it comes to that. -/
theorem read_cases (text : String) :
    (∃ fault, parseLenient text = .error (.invalidJson fault.message) ∧
      (read text = .error (.malformed fault) ∨
        ∃ error, read text = .error (.rejected error))) ∨
    ∃ f, parseLenient text = .ok f ∧ read text = f.validated.mapError .rejected := by
  rw [parseLenient, parseLenientLogged, ofText, Reader.run, read, readLogged]
  cases Reader.value bracketBudget text.toList with
  | error stop => exact Or.inl ⟨_, rfl, Or.inl rfl⟩
  | ok found =>
    obtain ⟨v, rest⟩ := found
    have checked : (ofEmbeddedLogged v).value = (ofJson v).validated.mapError .rejected := rfl
    simp only [Logged.value_bind, checked]
    cases endOfText rest with
    | error stop =>
      refine Or.inl ⟨_, rfl, ?_⟩
      cases (ofJson v).validated with
      | error error => exact Or.inr ⟨error, rfl⟩
      | ok f => exact Or.inl rfl
    | ok _ =>
      refine Or.inr ⟨ofJson v, rfl, ?_⟩
      cases (ofJson v).validated <;> rfl

/-- Strict parsing differs from lenient parsing in the filters that it takes. -/
theorem parse_eq_ok_iff : parse text = .ok f ↔ parseLenient text = .ok f ∧ f.Whole := by
  rw [← firstUnsupported?_eq_none_iff, parse_eq]
  constructor
  · intro h
    obtain ⟨g, lenient, strict⟩ := bind_eq_ok_iff.mp h
    obtain ⟨whole, rfl⟩ := validated_eq_ok_iff.mp strict
    exact ⟨lenient, whole⟩
  · rintro ⟨lenient, whole⟩
    exact bind_eq_ok_iff.mpr ⟨f, lenient, validated_eq_ok_iff.mpr ⟨whole, rfl⟩⟩

theorem read_eq_ok_iff : read text = .ok f ↔ parse text = .ok f := by
  rw [parse_eq]
  rcases read_cases text with ⟨fault, lenient, refused⟩ | ⟨g, lenient, embedded⟩
  · rw [lenient]
    rcases refused with malformed | ⟨error, rejected⟩
    · rw [malformed]
      simp [Except.bind]
    · rw [rejected]
      simp [Except.bind]
  · rw [lenient, embedded, mapError_eq_ok_iff]
    rfl

/-- An unsupported node is only ever reported of a whole text that is JSON, and then reading reports
the same node. -/
theorem read_of_parse_unsupported {path reason : String}
    (h : parse text = .error (.unsupportedNode path reason)) :
    read text = .error (.rejected (.unsupportedNode path reason)) ∧
      ∃ f, parseLenient text = .ok f := by
  rw [parse_eq] at h
  rcases read_cases text with ⟨fault, lenient, _⟩ | ⟨f, lenient, embedded⟩
  · rw [lenient] at h
    cases h
  · rw [lenient] at h
    change f.validated = _ at h
    rw [embedded, h]
    exact ⟨rfl, f, lenient⟩

theorem parse_of_parseLenient_error {error : FilterError} (h : parseLenient text = .error error) :
    parse text = .error error := by
  rw [parse_eq, h]
  rfl

theorem parseLenient_error_cases {error : FilterError} (h : parseLenient text = .error error) :
    (∃ message, error = .invalidJson message) ∧ ∃ refused, read text = .error refused := by
  rcases read_cases text with ⟨fault, lenient, refused⟩ | ⟨f, lenient, _⟩
  · rw [lenient] at h
    cases h
    refine ⟨⟨_, rfl⟩, ?_⟩
    rcases refused with malformed | ⟨error, rejected⟩
    · exact ⟨_, malformed⟩
    · exact ⟨_, rejected⟩
  · rw [lenient] at h
    cases h

/-- **The ways into a filter agree.** Strict parsing and reading take the same texts to the same
filters, and these are the texts that lenient parsing takes to a filter that was decoded whole. What
strict parsing says of an unsupported node reading says in the same words, and lenient parsing then
succeeds. Where lenient parsing fails the text is not JSON, which strict parsing says in the same
words, and reading fails too. -/
theorem entry_points_agree (text : String) :
    (∀ f, (parse text = .ok f ↔ read text = .ok f) ∧
      (read text = .ok f ↔ parseLenient text = .ok f ∧ f.Whole)) ∧
    (∀ path reason, parse text = .error (.unsupportedNode path reason) →
      (∃ refused, read text = .error refused ∧
        refused.message = (FilterError.unsupportedNode path reason).message) ∧
      ∃ f, parseLenient text = .ok f) ∧
    ∀ error, parseLenient text = .error error →
      (∃ message, error = .invalidJson message) ∧ parse text = .error error ∧
        ∃ refused, read text = .error refused := by
  refine ⟨fun f => ⟨read_eq_ok_iff.symm, read_eq_ok_iff.trans parse_eq_ok_iff⟩,
    fun path reason h => ?_, fun error h => ?_⟩
  · obtain ⟨rejected, lenient⟩ := read_of_parse_unsupported h
    exact ⟨⟨_, rejected, rfl⟩, lenient⟩
  · obtain ⟨malformed, refused⟩ := parseLenient_error_cases h
    exact ⟨malformed, parse_of_parseLenient_error h, refused⟩

/-- A combinator without a list, once alone and once with more text after it. -/
theorem list_missing_refused :
    (∃ refused, read "\x7b\"type\":\"and\"\x7d" = .error refused ∧
      refused.message = "unsupported filter at $: missing \"filters\"") ∧
    (∃ f, parseLenient "\x7b\"type\":\"and\"\x7d" = .ok f) ∧
    parse "\x7b\"type\":\"and\"\x7d and" =
      .error (.invalidJson "trailing characters at line 1 column 16") ∧
    ∃ refused, read "\x7b\"type\":\"and\"\x7d and" = .error refused := by
  have alone : parse "\x7b\"type\":\"and\"\x7d" =
      .error (.unsupportedNode "$" "missing \"filters\"") := by
    decide +kernel
  have followed : parseLenient "\x7b\"type\":\"and\"\x7d and" =
      .error (.invalidJson "trailing characters at line 1 column 16") := by
    decide +kernel
  obtain ⟨read_alone, lenient⟩ := (entry_points_agree _).2.1 _ _ alone
  obtain ⟨_, strict, read_followed⟩ := (entry_points_agree _).2.2 _ followed
  exact ⟨read_alone, lenient, strict, read_followed⟩

end Sieve.Filter
