import Sieve.Proofs.Assoc
import Sieve.Proofs.Filter.UnknownName
import Sieve.Proofs.Text.EditDistance

/-!
The name that is suggested for an unknown one. Both are taken in lower case, and the legal name that
takes the fewest edits is suggested, the first of several, unless it takes more than three. No legal
name has a sigma, so the two small forms of this letter are alike to the edit distance.
-/

namespace Sieve

variable {q s name best reason : String} {legal : List String} {low : List Char} {n : Nat}

/-! ### The nearest name -/

theorem nearestName?_eq_none_iff : nearestName? q legal = none ↔ legal = [] := by
  cases legal with
  | nil => simp [nearestName?]
  | cons candidate rest =>
    rw [nearestName?]
    split
    · split <;> simp
    · simp

theorem nearestName?_eq_some (h : nearestName? q legal = some (best, n)) :
    n = nameDistance q best ∧ (∀ name ∈ legal, n ≤ nameDistance q name) ∧
      ∃ before after, legal = before ++ best :: after ∧
        ∀ name ∈ before, n < nameDistance q name := by
  induction legal generalizing best n with
  | nil => cases h
  | cons candidate rest ih =>
    rw [nearestName?] at h
    cases found : nearestName? q rest with
    | none =>
      rw [found] at h
      cases h
      rw [nearestName?_eq_none_iff.mp found]
      exact ⟨rfl, by simp, [], [], rfl, by simp⟩
    | some later =>
      obtain ⟨distance, least, before, after, split, farther⟩ := ih found
      simp only [found] at h
      by_cases less : later.2 < nameDistance q candidate
      · rw [if_pos less] at h
        cases h
        refine ⟨distance, ?_, candidate :: before, after, by rw [split]; rfl, ?_⟩
        · exact List.forall_mem_cons.mpr ⟨Nat.le_of_lt less, least⟩
        · exact List.forall_mem_cons.mpr ⟨less, farther⟩
      · rw [if_neg less] at h
        cases h
        refine ⟨rfl, List.forall_mem_cons.mpr ⟨Nat.le_refl _, ?_⟩, [], rest, rfl, by simp⟩
        intro name mem
        exact Nat.le_trans (Nat.le_of_not_lt less) (least name mem)

theorem suggestion?_eq_some (h : suggestion? q legal = some s) :
    s ≠ q ∧ nameDistance q s ≤ suggestionReach ∧
      (∀ name ∈ legal, nameDistance q s ≤ nameDistance q name) ∧
      ∃ before after, legal = before ++ s :: after ∧
        ∀ name ∈ before, nameDistance q s < nameDistance q name := by
  rw [suggestion?] at h
  cases found : nearestName? q legal with
  | none =>
    rw [found] at h
    cases h
  | some nearest =>
    simp only [found, Option.ite_none_right_eq_some] at h
    obtain ⟨⟨other, near⟩, same⟩ := h
    cases same
    obtain ⟨distance, least, split⟩ := nearestName?_eq_some found
    rw [distance] at near least split
    exact ⟨other, near, least, split⟩

/-- An unknown name that is near to a legal one is never left without a suggestion. -/
theorem exists_suggestion (unknown : q ∉ legal) (mem : name ∈ legal)
    (near : nameDistance q name ≤ suggestionReach) : ∃ s, suggestion? q legal = some s := by
  rw [suggestion?]
  cases found : nearestName? q legal with
  | none =>
    rw [nearestName?_eq_none_iff.mp found] at mem
    cases mem
  | some nearest =>
    obtain ⟨_, least, before, after, split, _⟩ := nearestName?_eq_some found
    have other : nearest.1 ≠ q := by
      rintro rfl
      rw [split] at unknown
      simp at unknown
    exact ⟨nearest.1, if_pos ⟨other, Nat.le_trans (least name mem) near⟩⟩

/-! ### Edits between names -/

/-- What a name may be in lower case: a small sigma has a form of its own at the end of a word. -/
def LowerCased (name : String) (low : List Char) : Prop :=
  List.Forall₂ (fun c d => d = c ∨ c = 'σ' ∧ d = 'ς') (Text.lower name.toList) low

theorem lowerCased_lower (name : String) : LowerCased name (Text.lower name.toList) :=
  List.forall₂_same.mpr fun _ _ => Or.inl rfl

/-- So many edits make the lower-case form of a name. -/
def Reaches (low : List Char) (n : Nat) (name : String) : Prop :=
  Text.Script n low (Text.lower name.toList)

/-- No name takes fewer edits than this one, and none before it as few. -/
def FirstNearest (low : List Char) (legal : List String) (s : String) : Prop :=
  ∃ n before after, legal = before ++ s :: after ∧
    IsLeast {m | ∃ name ∈ legal, Reaches low m name} n ∧ Reaches low n s ∧
    ∀ name ∈ before, ¬Reaches low n name

/-- A name without a sigma. -/
def Plain (name : String) : Prop :=
  'σ' ∉ Text.lower name.toList ∧ 'ς' ∉ Text.lower name.toList

instance (name : String) : Decidable (Plain name) :=
  inferInstanceAs (Decidable ('σ' ∉ Text.lower name.toList ∧ 'ς' ∉ Text.lower name.toList))

theorem nameDistance_eq (lowered : LowerCased q low) (plain : Plain name) :
    nameDistance q name = Text.editDistance low (Text.lower name.toList) := by
  refine Text.editDistance_congr (lowered.imp ?_)
  rintro c d (rfl | ⟨rfl, rfl⟩) y mem
  · exact Iff.rfl
  · constructor
    · rintro rfl
      exact absurd mem plain.1
    · rintro rfl
      exact absurd mem plain.2

theorem isLeast_nameDistance (lowered : LowerCased q low) (plain : Plain name) :
    IsLeast {n | Reaches low n name} (nameDistance q name) := by
  rw [nameDistance_eq lowered plain]
  exact Text.isLeast_editDistance _ _

theorem firstNearest_of_suggestion (lowered : LowerCased q low) (plain : ∀ name ∈ legal, Plain name)
    (h : suggestion? q legal = some s) : FirstNearest low legal s := by
  obtain ⟨_, _, least, before, after, split, farther⟩ := suggestion?_eq_some h
  have mem : s ∈ legal := by simp [split]
  have shortest {name : String} (listed : name ∈ legal) :
      IsLeast {n | Reaches low n name} (nameDistance q name) :=
    isLeast_nameDistance lowered (plain name listed)
  have reached := (shortest mem).1
  refine ⟨nameDistance q s, before, after, split, ⟨⟨s, mem, reached⟩, ?_⟩, reached, ?_⟩
  · rintro m ⟨name, listed, reaches⟩
    exact Nat.le_trans (least name listed) ((shortest listed).2 reaches)
  · intro name earlier reaches
    have listed : name ∈ legal := by simp [split, earlier]
    exact Nat.not_lt_of_le ((shortest listed).2 reaches) (farther name earlier)

theorem exists_suggestion_iff (lowered : LowerCased q low) (plain : ∀ name ∈ legal, Plain name)
    (unknown : q ∉ legal) :
    (∃ s, suggestion? q legal = some s) ↔
      ∃ name ∈ legal, ∃ n ≤ suggestionReach, Reaches low n name := by
  constructor
  · rintro ⟨s, h⟩
    obtain ⟨_, near, _, before, after, split, _⟩ := suggestion?_eq_some h
    have mem : s ∈ legal := by simp [split]
    exact ⟨s, mem, nameDistance q s, near, (isLeast_nameDistance lowered (plain s mem)).1⟩
  · rintro ⟨name, mem, n, near, reaches⟩
    have no_more := (isLeast_nameDistance lowered (plain name mem)).2 reaches
    exact exists_suggestion unknown mem (Nat.le_trans no_more near)

/-! ### What a reason asks -/

/-- The words that offer a name. -/
def didYouMean (s : String) : String := " (did you mean " ++ Rejection.inQuotes s ++ "?)"

theorem didYouMean_injective (h : didYouMean s = didYouMean name) : s = name := by
  unfold didYouMean at h
  have quoted := (String.append_right_inj _).mp ((String.append_left_inj _).mp h)
  unfold Rejection.inQuotes at quoted
  exact (String.append_right_inj _).mp ((String.append_left_inj _).mp quoted)

theorem didYouMean_ne_empty (s : String) : didYouMean s ≠ "" := by
  intro empty
  have ends := (String.append_eq_empty_iff.mp empty).2
  exact absurd ends (by decide)

namespace NameKey

variable {k : NameKey} {members : List (String × Json)}

/-- What is said of an unknown name, whether a name is offered or not. -/
def complaint (q : String) : NameKey → String
  | .type => "unknown filter type " ++ Rejection.inQuotes q
  | .operation kind =>
    "unknown operation " ++ Rejection.inQuotes q ++ " for " ++ kind.name ++ " filter"

/-- A reason offers a name for an unknown one. -/
def Offers (k : NameKey) (q s reason : String) : Prop := reason = k.complaint q ++ didYouMean s

theorem plain_legal (k : NameKey) : ∀ name ∈ k.legal, Plain name := by
  cases k with
  | type => decide +kernel
  | operation kind => cases kind <;> decide +kernel

theorem reason_rejection :
    (k.rejection q).reason = k.complaint q ++ Rejection.question q k.legal := by
  cases k <;> rfl

theorem offers_iff : k.Offers q s (k.rejection q).reason ↔ suggestion? q k.legal = some s := by
  rw [Offers, reason_rejection, String.append_right_inj, Rejection.question]
  cases suggestion? q k.legal with
  | none => exact iff_of_false (didYouMean_ne_empty s).symm nofun
  | some given =>
    constructor
    · intro same
      exact congrArg some (didYouMean_injective same)
    · intro same
      cases same
      rfl

theorem reason_cases (k : NameKey) (q : String) :
    (k.rejection q).reason = k.complaint q ∨ ∃ s, k.Offers q s (k.rejection q).reason := by
  cases given : suggestion? q k.legal with
  | none =>
    rw [reason_rejection, Rejection.question, given]
    exact Or.inl (String.append_empty)
  | some s => exact Or.inr ⟨s, offers_iff.mpr given⟩

/-- Putting a legal name in the place of an unknown one brings the node past that key. -/
theorem Unknown.other_key_of_insert (h : k.Unknown q members) (known : s ∈ k.legal) {r : Rejection}
    (rejected : NodeShape.ofMembers (Assoc.insert k.key (.string s) members) = .error r) :
    ∃ key, r.key? = some key ∧ key ≠ k.key := by
  have reached : k.Reached (Assoc.insert k.key (.string s) members) := by
    cases k with
    | type => trivial
    | operation kind =>
      obtain ⟨kind_under, field, field_under⟩ := h.reached
      refine ⟨?_, field, ?_⟩
      · rw [Assoc.lookup_insert, if_neg (by simp [key]), kind_under]
      · rw [Assoc.lookup_insert, if_neg (by simp [key]), field_under]
  have under := Assoc.lookup_insert k.key k.key (Json.string s) members
  rw [if_pos rfl] at under
  exact other_key_of_legal reached under known rejected

end NameKey

/-- **What is suggested for an unknown name is the nearest legal one.** A node is kept for an unknown
name just if there is one where it is looked for. Its reason then offers a name if some legal one is
at most three edits away, and that name is legal, takes the fewest edits and is the first that takes
so few; and with it in the place of the unknown one, the node is decoded or kept for another key. -/
theorem Filter.suggests_nearest (k : NameKey) (q : String) (members : List (String × Json)) :
    (NodeShape.ofMembers members = .error (k.rejection q) ↔ k.Unknown q members) ∧
    (k.Unknown q members → ∀ low, LowerCased q low → ∃ reason,
      ofJson (.object members) = .unsupported reason (.object members) ∧
      (reason = k.complaint q ∨ ∃ s, k.Offers q s reason) ∧
      ((∃ s, k.Offers q s reason) ↔ ∃ name ∈ k.legal, ∃ n ≤ 3, Reaches low n name) ∧
      ∀ s, k.Offers q s reason → s ∈ k.legal ∧ s ≠ q ∧ FirstNearest low k.legal s ∧
        ∀ reason raw,
          ofJson (.object (Assoc.insert k.key (.string s) members)) = .unsupported reason raw →
          ∃ r key, NodeShape.ofMembers (Assoc.insert k.key (.string s) members) = .error r ∧
            r.reason = reason ∧ r.key? = some key ∧ key ≠ k.key) := by
  refine ⟨NameKey.ofMembers_eq_rejection_iff, ?_⟩
  intro h low lowered
  have rejected := NameKey.ofMembers_eq_rejection_iff.mpr h
  refine ⟨(k.rejection q).reason, ?_, ?_, ?_, ?_⟩
  · exact ofJson_object_eq_unsupported_iff.mpr ⟨rfl, k.rejection q, rejected, rfl⟩
  · exact NameKey.reason_cases k q
  · simp only [NameKey.offers_iff]
    exact exists_suggestion_iff lowered k.plain_legal h.unknown
  · intro s offered
    have given := NameKey.offers_iff.mp offered
    obtain ⟨other, _, _, before, after, split, _⟩ := suggestion?_eq_some given
    have known : s ∈ k.legal := by simp [split]
    refine ⟨known, other, firstNearest_of_suggestion lowered k.plain_legal given, ?_⟩
    intro reason raw kept
    obtain ⟨_, r, still, same⟩ := ofJson_object_eq_unsupported_iff.mp kept
    obtain ⟨key, key_of, apart⟩ := h.other_key_of_insert known still
    exact ⟨r, key, still, same, key_of, apart⟩

/-- A name with a wrong capital is at distance zero from the legal one, and not legal. -/
theorem Filter.suggests_other_case :
    (NameKey.operation .string).Unknown "StartsWith"
      [("field", .string "sender"), ("operation", .string "StartsWith"),
        ("type", .string "string")] ∧
    FirstNearest "startswith".toList ["eq", "startsWith", "endsWith", "contains"] "startsWith" := by
  have unknown : (NameKey.operation .string).Unknown "StartsWith"
      [("field", .string "sender"), ("operation", .string "StartsWith"),
        ("type", .string "string")] :=
    ⟨⟨rfl, "sender", rfl⟩, rfl, by decide⟩
  have small : Text.lower "StartsWith".toList = "startswith".toList := by decide +kernel
  have lowered : LowerCased "StartsWith" "startswith".toList := small ▸ lowerCased_lower _
  obtain ⟨reason, kept, _, _, offers⟩ := (suggests_nearest _ _ _).2 unknown _ lowered
  have offered : (NameKey.operation .string).Offers "StartsWith" "startsWith" reason := by
    obtain ⟨_, r, rejected, rfl⟩ := ofJson_object_eq_unsupported_iff.mp kept
    cases rejected.symm.trans (NameKey.ofMembers_eq_rejection_iff.mpr unknown)
    exact NameKey.offers_iff.mpr (by decide +kernel)
  exact ⟨unknown, (offers "startsWith" offered).2.2.1⟩

end Sieve
