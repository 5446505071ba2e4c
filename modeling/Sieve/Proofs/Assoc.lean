import Mathlib.Data.List.Forall2
import Mathlib.Data.List.Nodup
import Sieve.Assoc

/-!
Look-ups in lists of named values. Putting a value in changes what is held under its name and under
no other, so a list built from entries holds under every name the last value that they give it.
-/

namespace Sieve.Assoc

variable {α β : Type}

theorem lookup_cons_eq (name other : String) (value : α) (entries : List (String × α)) :
    ((other, value) :: entries).lookup name =
      if name = other then some value else entries.lookup name := by
  rw [List.lookup_cons]
  by_cases equal : name = other
  · rw [if_pos equal, beq_iff_eq.mpr equal]
  · rw [if_neg equal, beq_eq_false_iff_ne.mpr equal]

/-- Nothing is held under a name before all the names there are. -/
theorem lookup_eq_none_of_after {name : String} {entries : List (String × α)}
    (after : ∀ entry ∈ entries, name < entry.1) : entries.lookup name = none := by
  rw [List.lookup_eq_none_iff]
  intro entry mem
  exact bne_iff_ne.mpr fun equal => String.lt_irrefl name (equal ▸ after entry mem)

theorem lookup_before_head {name other : String} {old : α} {rest : List (String × α)}
    (h : Sorted ((other, old) :: rest)) (before : name < other) :
    ((other, old) :: rest).lookup name = none := by
  apply lookup_eq_none_of_after
  intro entry mem
  rcases List.mem_cons.mp mem with rfl | mem
  · exact before
  · exact String.lt_trans before ((List.pairwise_cons.mp h).1 entry mem)

/-- What an exchange gives back is what was held under the name, for the name stood nowhere past its
own place. -/
theorem exchange_fst {entries : List (String × α)} (h : Sorted entries) (name : String)
    (value : α) : (exchange name value entries).1 = entries.lookup name := by
  induction entries with
  | nil => rfl
  | cons head rest ih =>
    obtain ⟨other, old⟩ := head
    rw [exchange]
    by_cases before : name < other
    · rw [if_pos before, lookup_before_head h before]
    · rw [if_neg before, lookup_cons_eq]
      by_cases equal : name = other
      · rw [if_pos equal, if_pos equal]
      · rw [if_neg equal, if_neg equal]
        exact ih (List.pairwise_cons.mp h).2

/-- Putting a value in changes one look-up. -/
theorem lookup_insert (name other : String) (value : α) (entries : List (String × α)) :
    (insert name value entries).lookup other =
      if other = name then some value else entries.lookup other := by
  induction entries with
  | nil => rw [insert, lookup_cons_eq]
  | cons head rest ih =>
    obtain ⟨held, old⟩ := head
    rw [insert]
    by_cases before : name < held
    · rw [if_pos before, lookup_cons_eq]
    · rw [if_neg before]
      by_cases equal : name = held
      · rw [if_pos equal, lookup_cons_eq, lookup_cons_eq, ← equal]
        by_cases same : other = name
        · rw [if_pos same, if_pos same]
        · rw [if_neg same, if_neg same, if_neg same]
      · rw [if_neg equal, lookup_cons_eq, lookup_cons_eq, ih]
        by_cases same : other = name
        · have apart : other ≠ held := fun at_head => equal (same.symm.trans at_head)
          rw [if_neg apart, if_pos same, if_pos same]
        · rw [if_neg same, if_neg same]

theorem lookup_foldl_insert (name : String) (entries held : List (String × α)) :
    (entries.foldl (fun held entry => insert entry.1 entry.2 held) held).lookup name =
      (entries.reverse.lookup name).or (held.lookup name) := by
  induction entries generalizing held with
  | nil => rfl
  | cons entry rest ih =>
    rw [List.foldl_cons, ih, lookup_insert, List.reverse_cons, List.lookup_append,
      Option.or_assoc, lookup_cons_eq, List.lookup_nil]
    by_cases same : name = entry.1
    · rw [if_pos same, if_pos same, Option.some_or]
    · rw [if_neg same, if_neg same, Option.none_or]

/-- The last value of a name is the first one from the end. -/
theorem lookup_ofList (name : String) (entries : List (String × α)) :
    (ofList entries).lookup name = entries.reverse.lookup name := by
  rw [ofList, lookup_foldl_insert, List.lookup_nil, Option.or_none]

/-- The last of the entries of a name. -/
def IsLast (entries : List (String × α)) (name : String) (value : α) : Prop :=
  ∃ earlier later, entries = earlier ++ (name, value) :: later ∧ ∀ entry ∈ later, entry.1 ≠ name

theorem IsLast.mem {entries : List (String × α)} {name : String} {value : α}
    (h : IsLast entries name value) : (name, value) ∈ entries := by
  obtain ⟨earlier, later, rfl, _⟩ := h
  exact List.mem_append_right _ List.mem_cons_self

theorem lookup_reverse_eq_some_iff {entries : List (String × α)} {name : String} {value : α} :
    entries.reverse.lookup name = some value ↔ IsLast entries name value := by
  rw [List.lookup_eq_some_iff]
  constructor
  · rintro ⟨later, earlier, split, others⟩
    refine ⟨earlier.reverse, later.reverse, ?_, ?_⟩
    · have turned := congrArg List.reverse split
      simpa using turned
    · intro entry hentry same
      have other := others entry (List.mem_reverse.mp hentry)
      simp [same] at other
  · rintro ⟨earlier, later, rfl, others⟩
    refine ⟨later.reverse, earlier.reverse, by simp, ?_⟩
    intro entry hentry
    have other := others entry (List.mem_reverse.mp hentry)
    simpa using Ne.symm other

theorem mem_names_iff {name : String} {entries : List (String × α)} :
    name ∈ entries.map (·.1) ↔ (entries.lookup name).isSome = true := by
  rw [List.lookup_isSome_iff, List.mem_map]
  constructor
  · rintro ⟨entry, mem, rfl⟩
    exact ⟨entry, mem, beq_self_eq_true _⟩
  · rintro ⟨entry, mem, equal⟩
    exact ⟨entry, mem, (beq_iff_eq.mp equal).symm⟩

theorem nodup_names {entries : List (String × α)} (h : Sorted entries) :
    (entries.map (·.1)).Nodup := by
  have ordered : (entries.map (·.1)).Pairwise (· < ·) := List.pairwise_map.mpr h
  apply ordered.imp
  intro a b less same
  rw [same] at less
  exact String.lt_irrefl b less

/-- Where every name stands once, a look-up finds what is listed. -/
theorem lookup_eq_some_iff_mem {entries : List (String × α)} (once : (entries.map (·.1)).Nodup)
    {name : String} {value : α} :
    entries.lookup name = some value ↔ (name, value) ∈ entries := by
  induction entries with
  | nil => simp
  | cons entry rest ih =>
    obtain ⟨held, old⟩ := entry
    obtain ⟨fresh, later⟩ := List.nodup_cons.mp once
    rw [lookup_cons_eq, List.mem_cons, Prod.mk.injEq]
    by_cases same : name = held
    · subst same
      have absent : (name, value) ∉ rest := fun mem => fresh (List.mem_map.mpr ⟨_, mem, rfl⟩)
      simp [absent, eq_comm]
    · simp [same, ih later]

/-- Where every name stands once, the order of the entries does not matter to look-ups. -/
theorem lookup_perm {entries others : List (String × α)} (once : (entries.map (·.1)).Nodup)
    (h : others.Perm entries) (name : String) : others.lookup name = entries.lookup name := by
  have once' : (others.map (·.1)).Nodup := (h.map (·.1)).nodup_iff.mpr once
  ext value
  rw [lookup_eq_some_iff_mem once', lookup_eq_some_iff_mem once, h.mem_iff]

theorem eq_of_lookup_eq {entries others : List (String × α)} (h : Sorted entries)
    (h' : Sorted others) (same : ∀ name, entries.lookup name = others.lookup name) :
    entries = others := by
  have once := nodup_names h
  have once' := nodup_names h'
  have perm : entries.Perm others := by
    rw [List.perm_ext_iff_of_nodup (List.Nodup.of_map _ once) (List.Nodup.of_map _ once')]
    rintro ⟨name, value⟩
    rw [← lookup_eq_some_iff_mem once, ← lookup_eq_some_iff_mem once', same]
  refine List.Perm.eq_of_pairwise ?_ h h' perm
  intro a b _ _ less more
  exact absurd more (String.lt_asymm less)

/-- A list built from entries has their names and no others. -/
theorem mem_names_ofList {name : String} {entries : List (String × α)} :
    name ∈ (ofList entries).map (·.1) ↔ name ∈ entries.map (·.1) := by
  rw [mem_names_iff, lookup_ofList, ← mem_names_iff, List.map_reverse, List.mem_reverse]

/-- Where every name stands once, choosing among entries and changing their values is done look-up
by look-up. -/
theorem lookup_filterMap {entries : List (String × α)} (h : Sorted entries)
    (change : String → α → Option β) (name : String) :
    (entries.filterMap fun entry => (change entry.1 entry.2).map (entry.1, ·)).lookup name =
      (entries.lookup name).bind (change name) := by
  induction entries with
  | nil => rfl
  | cons head rest ih =>
    obtain ⟨held, value⟩ := head
    obtain ⟨first, later⟩ := List.pairwise_cons.mp h
    rw [lookup_cons_eq, List.filterMap_cons]
    by_cases same : name = held
    · subst same
      rw [if_pos rfl, Option.bind_some]
      cases changed : change name value with
      | some made => rw [Option.map_some]; simp only [lookup_cons_eq, if_pos]
      | none =>
        -- The name stands at the head alone, so dropping the head leaves none.
        have absent : rest.lookup name = none := lookup_eq_none_of_after first
        rw [Option.map_none]
        simp only [ih later, absent, Option.bind_none]
    · rw [if_neg same]
      cases change held value with
      | some made => rw [Option.map_some]; simp only [lookup_cons_eq, if_neg same, ih later]
      | none => rw [Option.map_none]; exact ih later

theorem lookup_map (change : String → α → β) (name : String) (entries : List (String × α)) :
    (entries.map fun entry => (entry.1, change entry.1 entry.2)).lookup name =
      (entries.lookup name).map (change name) := by
  induction entries with
  | nil => rfl
  | cons entry rest ih =>
    rw [List.map_cons, lookup_cons_eq, lookup_cons_eq, ih]
    by_cases same : name = entry.1
    · rw [if_pos same, if_pos same, Option.map_some, same]
    · rw [if_neg same, if_neg same]

theorem lookup_filter {entries : List (String × α)} (h : Sorted entries)
    (kept : String × α → Bool) (name : String) :
    (entries.filter kept).lookup name =
      (entries.lookup name).filter fun value => kept (name, value) := by
  have guarded : entries.filter kept = entries.filterMap fun entry =>
      (Option.guard (fun value => kept (entry.1, value)) entry.2).map (entry.1, ·) := by
    rw [← List.filterMap_eq_filter]
    congr 1
    funext entry
    cases holds : kept entry <;> simp [Option.guard, holds]
  rw [guarded, lookup_filterMap h (fun name => Option.guard fun value => kept (name, value))]
  cases entries.lookup name <;> simp [Option.guard, Option.filter]

/-- Choosing among entries keeps them in order. -/
theorem sorted_filterMap {entries : List (String × α)} (h : Sorted entries)
    (change : String → α → Option β) :
    Sorted (entries.filterMap fun entry => (change entry.1 entry.2).map (entry.1, ·)) := by
  refine List.Pairwise.filterMap _ ?_ h
  intro entry other before made hmade made' hmade'
  obtain ⟨_, _, rfl⟩ := Option.map_eq_some_iff.mp hmade
  obtain ⟨_, _, rfl⟩ := Option.map_eq_some_iff.mp hmade'
  exact before

/-- The same name, and related values. -/
def Named (R : α → β → Prop) (entry : String × α) (other : String × β) : Prop :=
  entry.1 = other.1 ∧ R entry.2 other.2

section Named

variable {R : α → β → Prop}

/-- Values put in alongside each other stand alongside each other. -/
theorem forall₂_insert {name : String} {a : α} {b : β} (related : R a b)
    {entries : List (String × α)} {others : List (String × β)}
    (h : List.Forall₂ (Named R) entries others) :
    List.Forall₂ (Named R) (insert name a entries) (insert name b others) := by
  induction h with
  | nil => exact .cons ⟨rfl, related⟩ .nil
  | @cons entry other rest rest' head tail ih =>
    obtain ⟨held, old⟩ := entry
    obtain ⟨held', old'⟩ := other
    obtain ⟨rfl, values⟩ : held = held' ∧ R old old' := head
    rw [insert, insert]
    by_cases before : name < held
    · rw [if_pos before, if_pos before]
      exact .cons ⟨rfl, related⟩ (.cons ⟨rfl, values⟩ tail)
    · rw [if_neg before, if_neg before]
      by_cases equal : name = held
      · rw [if_pos equal, if_pos equal]
        exact .cons ⟨rfl, related⟩ tail
      · rw [if_neg equal, if_neg equal]
        exact .cons ⟨rfl, values⟩ ih

theorem forall₂_ofList {entries : List (String × α)} {others : List (String × β)}
    (h : List.Forall₂ (Named R) entries others) :
    List.Forall₂ (Named R) (ofList entries) (ofList others) := by
  have onto (held : List (String × α)) (held' : List (String × β))
      (already : List.Forall₂ (Named R) held held') :
      List.Forall₂ (Named R)
        (entries.foldl (fun held entry => insert entry.1 entry.2 held) held)
        (others.foldl (fun held entry => insert entry.1 entry.2 held) held') := by
    induction h generalizing held held' with
    | nil => exact already
    | cons head _ ih =>
      rw [List.foldl_cons, List.foldl_cons, ← head.1]
      exact ih _ _ (forall₂_insert head.2 already)
  exact onto [] [] .nil

/-- Sorted lists stand alongside each other if and only if their look-ups do, name by name. -/
theorem forall₂_named_iff {entries : List (String × α)} {others : List (String × β)}
    (h : Sorted entries) (h' : Sorted others) :
    List.Forall₂ (Named R) entries others ↔
      ∀ name, Option.Rel R (entries.lookup name) (others.lookup name) := by
  constructor
  · intro alongside name
    clear h h'
    induction alongside with
    | nil => exact .none
    | @cons entry other _ _ head _ ih =>
      obtain ⟨same, related⟩ := head
      rw [lookup_cons_eq, lookup_cons_eq, ← same]
      by_cases here : name = entry.1
      · rw [if_pos here, if_pos here]
        exact .some related
      · rw [if_neg here, if_neg here]
        exact ih
  · intro related
    induction entries generalizing others with
    | nil =>
      cases others with
      | nil => exact .nil
      | cons other rest' =>
        have at_head := related other.1
        rw [lookup_cons_eq, if_pos rfl] at at_head
        cases at_head
    | cons entry rest ih =>
      cases others with
      | nil =>
        have at_head := related entry.1
        rw [lookup_cons_eq, if_pos rfl] at at_head
        cases at_head
      | cons other rest' =>
        obtain ⟨held, value⟩ := entry
        obtain ⟨held', value'⟩ := other
        -- Each head is held by the other list as well, so neither comes before the other.
        have not_before : ¬held < held' := by
          intro before
          have at_head := related held
          rw [lookup_before_head h' before, lookup_cons_eq, if_pos rfl] at at_head
          cases at_head
        have not_after : ¬held' < held := by
          intro after
          have at_head := related held'
          rw [lookup_before_head h after, lookup_cons_eq, if_pos rfl] at at_head
          cases at_head
        have same : held = held' := by
          by_contra apart
          exact not_after (lt_of_not_lt_of_ne not_before apart)
        subst same
        obtain ⟨first, later⟩ := List.pairwise_cons.mp h
        obtain ⟨first', later'⟩ := List.pairwise_cons.mp h'
        have heads : R value value' := by
          have at_head := related held
          rw [lookup_cons_eq, lookup_cons_eq, if_pos rfl, if_pos rfl] at at_head
          cases at_head
          assumption
        refine .cons ⟨rfl, heads⟩ (ih later later' fun name => ?_)
        by_cases here : name = held
        · subst here
          rw [lookup_eq_none_of_after first, lookup_eq_none_of_after first']
          exact .none
        · have there := related name
          rwa [lookup_cons_eq, lookup_cons_eq, if_neg here, if_neg here] at there

end Named

end Sieve.Assoc
