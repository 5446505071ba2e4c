/-!
Lists of named values in the order of their names, each name once. Writing a name again replaces
its value, so a list built from entries holds the last value of every name; two such lists with the
same look-ups are the same list.
-/

namespace Sieve.Assoc

variable {α : Type}

/-- The names stand in strictly increasing order. -/
def Sorted (entries : List (String × α)) : Prop := entries.Pairwise fun a b => a.1 < b.1

/-- Puts a value at its place by name, over an older value of the name. -/
def insert (name : String) (value : α) : List (String × α) → List (String × α)
  | [] => [(name, value)]
  | (other, old) :: rest =>
    if name < other then (name, value) :: (other, old) :: rest
    else if name = other then (name, value) :: rest
    else (other, old) :: insert name value rest

/-- Puts a value at its place by name, and gives the older value that it replaces. -/
def exchange (name : String) (value : α) : List (String × α) → Option α × List (String × α)
  | [] => (none, [(name, value)])
  | (other, old) :: rest =>
    if name < other then (none, (name, value) :: (other, old) :: rest)
    else if name = other then (some old, (name, value) :: rest)
    else
      let later := exchange name value rest
      (later.1, (other, old) :: later.2)

/-- The last value of every name. -/
def ofList (entries : List (String × α)) : List (String × α) :=
  entries.foldl (fun held entry => insert entry.1 entry.2 held) []

theorem lt_of_not_lt_of_ne {a b : String} (h : ¬ a < b) (ne : a ≠ b) : b < a := by
  by_cases less : b < a
  · exact less
  · exact absurd (String.le_antisymm (String.not_lt.mp less) (String.not_lt.mp h)) ne

theorem insert_nil (name : String) (value : α) : insert name value [] = [(name, value)] := rfl

theorem insert_before {name other : String} (h : name < other) (value old : α)
    (rest : List (String × α)) :
    insert name value ((other, old) :: rest) = (name, value) :: (other, old) :: rest :=
  if_pos h

theorem insert_after {name other : String} (h : other < name) (value old : α)
    (rest : List (String × α)) :
    insert name value ((other, old) :: rest) = (other, old) :: insert name value rest := by
  have not_before : ¬name < other := String.lt_asymm h
  have not_equal : name ≠ other := by
    rintro rfl
    exact String.lt_irrefl name h
  rw [insert, if_neg not_before, if_neg not_equal]

theorem insert_last {name : String} (value : α) {entries : List (String × α)}
    (h : ∀ entry ∈ entries, entry.1 < name) :
    insert name value entries = entries ++ [(name, value)] := by
  induction entries with
  | nil => rfl
  | cons head rest ih =>
    obtain ⟨first, later⟩ := List.forall_mem_cons.mp h
    rw [insert_after first, ih later]
    rfl

/-- Putting a value in brings no other entry. -/
theorem mem_of_mem_insert {name : String} {value : α} {entries : List (String × α)}
    {entry : String × α} (h : entry ∈ insert name value entries) :
    entry = (name, value) ∨ entry ∈ entries := by
  induction entries with
  | nil => simpa [insert] using h
  | cons head rest ih =>
    obtain ⟨other, old⟩ := head
    simp only [insert] at h
    by_cases before : name < other
    · simpa [before] using h
    · by_cases equal : name = other
      · subst equal
        simp only [before, ↓reduceIte, List.mem_cons] at h
        rcases h with rfl | later
        · exact Or.inl rfl
        · exact Or.inr (List.mem_cons_of_mem _ later)
      · simp only [before, equal, ↓reduceIte, List.mem_cons] at h
        rcases h with rfl | later
        · exact Or.inr List.mem_cons_self
        · rcases ih later with new | old
          · exact Or.inl new
          · exact Or.inr (List.mem_cons_of_mem _ old)

theorem sorted_insert (name : String) (value : α) {entries : List (String × α)}
    (h : Sorted entries) : Sorted (insert name value entries) := by
  induction entries with
  | nil => simp [Sorted, insert]
  | cons head rest ih =>
    obtain ⟨other, old⟩ := head
    obtain ⟨first, later⟩ := List.pairwise_cons.mp h
    simp only [insert]
    by_cases before : name < other
    · simp only [before, ↓reduceIte]
      refine List.pairwise_cons.mpr ⟨fun entry mem => ?_, h⟩
      rcases List.mem_cons.mp mem with rfl | mem
      · exact before
      · exact String.lt_trans before (first entry mem)
    · by_cases equal : name = other
      · subst equal
        simp only [before, ↓reduceIte]
        exact List.pairwise_cons.mpr ⟨first, later⟩
      · simp only [before, equal, ↓reduceIte]
        refine List.pairwise_cons.mpr ⟨fun entry mem => ?_, ih later⟩
        rcases mem_of_mem_insert mem with rfl | mem
        · exact lt_of_not_lt_of_ne before equal
        · exact first entry mem

theorem exchange_snd (name : String) (value : α) (entries : List (String × α)) :
    (exchange name value entries).2 = insert name value entries := by
  induction entries with
  | nil => rfl
  | cons head rest ih =>
    obtain ⟨other, old⟩ := head
    rw [exchange, insert]
    by_cases before : name < other
    · rw [if_pos before, if_pos before]
    · by_cases equal : name = other
      · rw [if_neg before, if_neg before, if_pos equal, if_pos equal]
      · rw [if_neg before, if_neg before, if_neg equal, if_neg equal, ← ih]

theorem sorted_foldl_insert (entries : List (String × α)) {held : List (String × α)}
    (h : Sorted held) :
    Sorted (entries.foldl (fun held entry => insert entry.1 entry.2 held) held) := by
  induction entries generalizing held with
  | nil => exact h
  | cons entry rest ih => exact ih (sorted_insert entry.1 entry.2 h)

theorem sorted_ofList (entries : List (String × α)) : Sorted (ofList entries) :=
  sorted_foldl_insert entries List.Pairwise.nil

theorem ofList_of_sorted {entries : List (String × α)} (h : Sorted entries) :
    ofList entries = entries := by
  have onto (held : List (String × α)) (ordered : Sorted (held ++ entries)) :
      entries.foldl (fun held entry => insert entry.1 entry.2 held) held = held ++ entries := by
    clear h
    induction entries generalizing held with
    | nil => rw [List.append_nil]; rfl
    | cons entry rest ih =>
      have last : ∀ other ∈ held, other.1 < entry.1 := fun other mem =>
        (List.pairwise_append.mp ordered).2.2 other mem entry List.mem_cons_self
      rw [List.append_cons] at ordered ⊢
      rw [List.foldl_cons, insert_last entry.2 last]
      exact ih _ ordered
  exact onto [] h

end Sieve.Assoc
