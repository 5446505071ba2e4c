import Mathlib.Data.List.Forall2

/-!
Results that may be failures, and lists taken item by item by a step that may fail, the first
failure being that of the list.
-/

namespace Sieve

variable {ε α β : Type} {step : α → Except ε β}

/-- Whether a result is this failure can be told without comparing any that are none. -/
instance decidableEqError [DecidableEq ε] (x : Except ε α) (cause : ε) :
    Decidable (x = .error cause) :=
  match x with
  | .ok _ => isFalse nofun
  | .error found => decidable_of_iff (found = cause) (by simp)

/-- Whether a result is this one can be told without comparing any failures. -/
instance decidableEqOk [DecidableEq α] (x : Except ε α) (a : α) : Decidable (x = .ok a) :=
  match x with
  | .ok found => decidable_of_iff (found = a) (by simp)
  | .error _ => isFalse nofun

theorem map_eq_ok_iff {x : Except ε α} {f : α → β} {b : β} :
    x.map f = .ok b ↔ ∃ a, x = .ok a ∧ f a = b := by
  cases x with
  | error cause =>
    constructor
    · intro h
      cases h
    · rintro ⟨a, h, _⟩
      cases h
  | ok a =>
    constructor
    · intro h
      cases h
      exact ⟨a, rfl, rfl⟩
    · rintro ⟨a', h, rfl⟩
      cases h
      rfl

theorem mapError_eq_ok_iff {ε' : Type} {x : Except ε α} {make : ε → ε'} {a : α} :
    x.mapError make = .ok a ↔ x = .ok a := by
  cases x <;> simp [Except.mapError]

theorem bind_eq_ok_iff {x : Except ε α} {f : α → Except ε β} {b : β} :
    (x >>= f) = .ok b ↔ ∃ a, x = .ok a ∧ f a = .ok b := by
  cases x with
  | error cause =>
    constructor
    · intro h
      cases h
    · rintro ⟨a, h, _⟩
      cases h
  | ok a =>
    constructor
    · intro h
      exact ⟨a, rfl, h⟩
    · rintro ⟨a', h, made⟩
      cases h
      exact made

theorem bind_eq_error_iff {x : Except ε α} {f : α → Except ε β} {cause : ε} :
    (x >>= f) = .error cause ↔ x = .error cause ∨ ∃ a, x = .ok a ∧ f a = .error cause := by
  cases x with
  | error other =>
    constructor
    · intro h
      cases h
      exact Or.inl rfl
    · rintro (h | ⟨a, h, _⟩)
      · cases h
        rfl
      · cases h
  | ok a =>
    constructor
    · intro h
      exact Or.inr ⟨a, rfl, h⟩
    · rintro (h | ⟨a', h, failed⟩)
      · cases h
      · cases h
        exact failed

theorem map_eq_error_iff {x : Except ε α} {f : α → β} {cause : ε} :
    x.map f = .error cause ↔ x = .error cause := by
  cases x <;> simp [Except.map]

theorem toOption_ok (a : α) : (Except.ok a : Except ε α).toOption = some a := rfl

theorem toOption_bind (x : Except ε α) (f : α → Except ε β) :
    (x >>= f).toOption = x.toOption.bind fun a => (f a).toOption := by
  cases x <;> rfl

theorem toOption_eq_some_iff {x : Except ε α} {a : α} : x.toOption = some a ↔ x = .ok a := by
  cases x <;> simp [Except.toOption]

theorem toOption_eq_none_iff {x : Except ε α} : x.toOption = none ↔ ∃ cause, x = .error cause := by
  cases x <;> simp [Except.toOption]

/-- A list goes through if each of its items does. -/
theorem mapM_ok_iff {items : List α} {results : List β} :
    items.mapM step = .ok results ↔
      List.Forall₂ (fun a b => step a = .ok b) items results := by
  induction items generalizing results with
  | nil =>
    rw [List.mapM_nil, List.forall₂_nil_left_iff]
    constructor
    · intro h
      cases h
      rfl
    · rintro rfl
      rfl
  | cons a items ih =>
    rw [List.mapM_cons, List.forall₂_cons_left_iff]
    cases first : step a with
    | error cause =>
      constructor
      · intro h
        cases h
      · rintro ⟨b, _, h, _⟩
        cases h
    | ok b =>
      cases others : items.mapM step with
      | error cause =>
        constructor
        · intro h
          cases h
        · rintro ⟨_, bs, _, h, _⟩
          rw [ih.mpr h] at others
          cases others
      | ok bs =>
        constructor
        · intro h
          cases h
          exact ⟨b, bs, rfl, ih.mp others, rfl⟩
        · rintro ⟨b', bs', h, rest, rfl⟩
          cases h
          rw [ih.mpr rest] at others
          cases others
          rfl

/-- Items that each come back from what they become come back all together. -/
theorem exists_mapM_ok {back : β → α} {items : List α}
    (each : ∀ a ∈ items, ∃ b, step a = .ok b ∧ back b = a) :
    ∃ results, items.mapM step = .ok results ∧ results.map back = items := by
  induction items with
  | nil => exact ⟨[], rfl, rfl⟩
  | cons a items ih =>
    obtain ⟨b, ok, first⟩ := each a List.mem_cons_self
    obtain ⟨bs, oks, later⟩ := ih fun a' ha' => each a' (List.mem_cons_of_mem a ha')
    refine ⟨b :: bs, mapM_ok_iff.mpr (.cons ok (mapM_ok_iff.mp oks)), ?_⟩
    rw [List.map_cons, first, later]

/-- Where items can fail only one way, one of them is enough to fail the list that way. -/
theorem mapM_error {items : List α} {cause : ε}
    (each : ∀ a ∈ items, (∃ b, step a = .ok b) ∨ step a = .error cause)
    (failed : ∃ a ∈ items, step a = .error cause) : items.mapM step = .error cause := by
  induction items with
  | nil => obtain ⟨a, ha, _⟩ := failed; cases ha
  | cons a items ih =>
    rw [List.mapM_cons]
    rcases each a List.mem_cons_self with ⟨b, ok⟩ | error
    · have later : items.mapM step = .error cause := by
        refine ih (fun a' ha' => each a' (List.mem_cons_of_mem a ha')) ?_
        obtain ⟨a', ha', error⟩ := failed
        rcases List.mem_cons.mp ha' with rfl | ha'
        · rw [ok] at error
          cases error
        · exact ⟨a', ha', error⟩
      rw [ok, later]
      rfl
    · rw [error]
      rfl

/-- A relation along two lists may use that what it relates stands in them. -/
theorem forall₂_imp_of_mem {R S : α → β → Prop} {xs : List α} {ys : List β}
    (h : List.Forall₂ R xs ys) (each : ∀ a ∈ xs, ∀ b ∈ ys, R a b → S a b) :
    List.Forall₂ S xs ys := by
  induction h with
  | nil => exact .nil
  | cons first _ ih =>
    exact .cons (each _ List.mem_cons_self _ List.mem_cons_self first)
      (ih fun a ha b hb => each a (List.mem_cons_of_mem _ ha) b (List.mem_cons_of_mem _ hb))

/-- What holds of every item and of what the step makes of it holds along the list. -/
theorem map_eq_map_of_mapM {γ : Type} {before : α → γ} {after : β → γ} {items : List α}
    {results : List β} (ok : items.mapM step = .ok results)
    (each : ∀ a ∈ items, ∀ b ∈ results, step a = .ok b → after b = before a) :
    results.map after = items.map before := by
  have along := forall₂_imp_of_mem (mapM_ok_iff.mp ok) each
  rw [← List.forall₂_eq_eq_eq, List.forall₂_map_left_iff, List.forall₂_map_right_iff]
  exact along.flip

/-- A step that succeeds at least where another does takes the same lists to the same results. -/
theorem mapM_mono {more : α → Except ε β} {items : List α} {results : List β}
    (ok : items.mapM step = .ok results)
    (each : ∀ a ∈ items, ∀ b, step a = .ok b → more a = .ok b) :
    items.mapM more = .ok results :=
  mapM_ok_iff.mpr (forall₂_imp_of_mem (mapM_ok_iff.mp ok) fun a ha b _ => each a ha b)

end Sieve
