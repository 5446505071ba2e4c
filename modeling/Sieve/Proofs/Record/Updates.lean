import Sieve.Proofs.ReferencedFields

/-!
Records under updates. However a record is built from entries, it holds the last value of every
name, so it compares and is filtered by what it holds: neither the order of its entries nor the
values that were replaced leave a trace in it.
-/

namespace Sieve

open Assoc (IsLast Named)

namespace Record

theorem get?_ofList_eq_some_iff {entries : List (String × FieldValue)} {name : String}
    {value : FieldValue} :
    (ofList entries).get? name = some value ↔ IsLast entries name value := by
  have looked : (ofList entries).get? name = entries.reverse.lookup name :=
    Assoc.lookup_ofList name entries
  rw [looked, Assoc.lookup_reverse_eq_some_iff]

theorem mem_names_iff {entries : List (String × FieldValue)} {name : String} :
    (∃ value, (ofList entries).get? name = some value) ↔ ∃ value, (name, value) ∈ entries := by
  have names : name ∈ (Assoc.ofList entries).map (·.1) ↔ name ∈ entries.map (·.1) :=
    Assoc.mem_names_ofList
  rw [Assoc.mem_names_iff, Option.isSome_iff_exists] at names
  refine Iff.trans names ?_
  simp

/-- An exchange is an insertion that tells what was held before. -/
theorem exchange_eq (r : Record) (name : String) (value : FieldValue) :
    r.exchange name value = (r.get? name, r.insert name value) := by
  have held : (r.exchange name value).1 = r.get? name := Assoc.exchange_fst r.sorted name value
  have fields := Assoc.exchange_snd name value r.fields
  have record : (r.exchange name value).2 = r.insert name value := by
    simp only [exchange, insert, fields]
  exact Prod.ext held record

/-- Setting fields one after another over what is there. -/
theorem fields_foldl_insert (entries : List (String × FieldValue)) (r : Record) :
    (entries.foldl (fun r entry => r.insert entry.1 entry.2) r).fields =
      entries.foldl (fun held entry => Assoc.insert entry.1 entry.2 held) r.fields := by
  induction entries generalizing r with
  | nil => rfl
  | cons entry rest ih =>
    rw [List.foldl_cons, List.foldl_cons, ih]
    rfl

theorem foldl_insert_empty (entries : List (String × FieldValue)) :
    entries.foldl (fun r entry => r.insert entry.1 entry.2) .empty = ofList entries := by
  have fields := fields_foldl_insert entries .empty
  apply eq_of_get?_eq
  intro name
  rw [get?, fields]
  rfl

/-- Sets fields one after another, and gives what each of them held just before. -/
def exchangeAll (r : Record) : List (String × FieldValue) → List (Option FieldValue) × Record
  | [] => ([], r)
  | entry :: rest =>
    let done := r.exchange entry.1 entry.2
    let later := exchangeAll done.2 rest
    (done.1 :: later.1, later.2)

theorem exchangeAll_cons (r : Record) (entry : String × FieldValue)
    (rest : List (String × FieldValue)) :
    r.exchangeAll (entry :: rest) =
      (r.get? entry.1 :: ((r.insert entry.1 entry.2).exchangeAll rest).1,
        ((r.insert entry.1 entry.2).exchangeAll rest).2) := by
  rw [exchangeAll, exchange_eq]

theorem exchangeAll_snd (r : Record) (entries : List (String × FieldValue)) :
    (r.exchangeAll entries).2 = entries.foldl (fun r entry => r.insert entry.1 entry.2) r := by
  induction entries generalizing r with
  | nil => rfl
  | cons entry rest ih => rw [exchangeAll_cons, List.foldl_cons, ih]

/-- Every exchange gives back what the entries before it had left under its name. -/
theorem getElem?_exchangeAll_fst {r : Record} {entries : List (String × FieldValue)} {index : Nat}
    {entry : String × FieldValue} (h : entries[index]? = some entry) :
    (r.exchangeAll entries).1[index]? =
      some (((entries.take index).foldl (fun r entry => r.insert entry.1 entry.2) r).get?
        entry.1) := by
  induction entries generalizing r index with
  | nil => cases h
  | cons first rest ih =>
    rw [exchangeAll_cons]
    cases index with
    | zero =>
      cases h
      rfl
    | succ index =>
      rw [List.getElem?_cons_succ] at h ⊢
      rw [List.take_succ_cons, List.foldl_cons]
      exact ih h

theorem same_go_iff {xs ys : List (String × FieldValue)} :
    same.go xs ys = true ↔ List.Forall₂ (Named fun v w => v.same w = true) xs ys := by
  induction xs generalizing ys with
  | nil => cases ys <;> simp [same.go]
  | cons x xs ih =>
    cases ys with
    | nil => simp [same.go]
    | cons y ys =>
      rw [same.go, Bool.and_eq_true, Bool.and_eq_true, beq_iff_eq, ih, List.forall₂_cons]
      rfl

/-- Records are the same if and only if they hold equal values under the same names. -/
theorem same_iff {r s : Record} :
    r.same s = true ↔
      ∀ name, Option.Rel (fun v w => v.same w = true) (r.get? name) (s.get? name) := by
  rw [same, same_go_iff, Assoc.forall₂_named_iff r.sorted s.sorted]
  rfl

/-- No filter tells records apart that are the same. -/
theorem run_of_same {r s : Record} (h : r.same s = true) (f : Filter) (o : Options)
    (level : Nat) : f.run o r level = f.run o s level := by
  apply f.run_congr
  intro l _
  apply Leaf.run_of_alike
  have held := same_iff.mp h l.field
  generalize r.get? l.field = value?, s.get? l.field = other? at held
  cases held with
  | none => exact .none
  | some equal => exact .some (Or.inr equal)

/-- A number that is none makes a record differ from every record. -/
theorem same_eq_false_of_isNaN {r s : Record} {name : String} {x : Binary64}
    (held : r.get? name = some (.number x)) (nan : x.isNaN = true) : r.same s = false := by
  rw [← Bool.not_eq_true, same_iff]
  intro related
  have here := related name
  rw [held] at here
  generalize s.get? name = other? at here
  cases here with
  | @some _ w equal =>
    cases w with
    | number y =>
      have number := (Binary64.same_iff.mp equal).1
      rw [nan] at number
      cases number
    | bool b => cases equal
    | text t => cases equal
    | date t => cases equal

/-- **The last writer wins.** Collected at once, chained or set one after another, the same entries
give the same record. It holds the last value of every name, its size counts the names, and each
value that is set gives back what the entries before it had left under the name. Setting a field
leaves every other one as it was. Records built from any entries are the same if and only if every
last value of one is equal to the last value of the name in the other; a record with a number that
is none is not even the same as itself. And no filter tells records apart that are the same, by its
verdict or its log. -/
theorem last_writer_wins :
    (∀ entries : List (String × FieldValue),
      entries.foldl (fun r entry => r.insert entry.1 entry.2) .empty = ofList entries ∧
      (exchangeAll .empty entries).2 = ofList entries ∧
      (∀ name value, (ofList entries).get? name = some value ↔ IsLast entries name value) ∧
      (ofList entries).size = {name | ∃ value, (name, value) ∈ entries}.ncard ∧
      ∀ index entry, entries[index]? = some entry →
        (exchangeAll .empty entries).1[index]? =
          some ((ofList (entries.take index)).get? entry.1)) ∧
    (∀ (r : Record) name value, (r.exchange name value).1 = r.get? name ∧
      ∀ other, (r.exchange name value).2.get? other =
        if other = name then some value else r.get? other) ∧
    (∀ entries others : List (String × FieldValue),
      (ofList entries).same (ofList others) = true ↔
        ∀ name,
          (∀ v, IsLast entries name v → ∃ w, IsLast others name w ∧ v.same w = true) ∧
          (∀ w, IsLast others name w → ∃ v, IsLast entries name v ∧ v.same w = true)) ∧
    (∀ (r s : Record) name x, r.get? name = some (.number x) → x.isNaN = true →
      r.same s = false) ∧
    ∀ r s : Record, r.same s = true → ∀ (f : Filter) o, f.run o r 1 = f.run o s 1 := by
  refine ⟨fun entries => ⟨foldl_insert_empty entries, ?_, ?_, ?_, ?_⟩, fun r name value => ?_,
    fun entries others => ?_, fun r s name x held nan => same_eq_false_of_isNaN held nan,
    fun r s h f o => run_of_same h f o 1⟩
  · rw [exchangeAll_snd, foldl_insert_empty]
  · exact fun name value => get?_ofList_eq_some_iff
  · rw [size_eq_ncard]
    simp only [mem_names_iff]
  · intro index entry h
    rw [getElem?_exchangeAll_fst h, foldl_insert_empty]
  · rw [exchange_eq]
    exact ⟨rfl, fun other => get?_insert r name other value⟩
  · rw [same_iff]
    refine forall_congr' fun name => ?_
    simp only [← get?_ofList_eq_some_iff]
    generalize (ofList entries).get? name = value?, (ofList others).get? name = other?
    cases value? <;> cases other? <;> simp

/-- A zero over a text, and a zero of the other sign set at once: the text is given back and then
forgotten, and the sign is not seen. -/
theorem zero_over_text_unseen :
    ((exchangeAll .empty [("a", .text "x"), ("b", .bool true), ("a", .number .zero)]).1[2]? =
        some (some (.text "x")) ∧
      (ofList [("a", .text "x"), ("b", .bool true), ("a", .number .zero)]).size = 2) ∧
    ((ofList [("n", .number .nan)]).get? "n" = some (.number .nan) ∧
      Binary64.nan.isNaN = true ∧
      (ofList [("n", .number .nan)]).same (ofList [("n", .number .nan)]) = false) ∧
    (ofList [("a", .text "x"), ("b", .bool true), ("a", .number .zero)]).same
        (ofList [("b", .bool true), ("a", .number Binary64.zero.neg)]) = true ∧
      (Filter.or [.string "a" .eq "x", .number "a" .lt ⟨1⟩]).run .default
          (ofList [("a", .text "x"), ("b", .bool true), ("a", .number .zero)]) 1 =
        (Filter.or [.string "a" .eq "x", .number "a" .lt ⟨1⟩]).run .default
          (ofList [("b", .bool true), ("a", .number Binary64.zero.neg)]) 1 := by
  obtain ⟨built, _, _, unequal, unseen⟩ := last_writer_wins
  have back := (built [("a", .text "x"), ("b", .bool true), ("a", .number .zero)]).2.2.2.2 2 _ rfl
  have before : (ofList [("a", .text "x"), ("b", .bool true)]).get? "a" = some (.text "x") := by
    decide
  have nan : (ofList [("n", .number .nan)]).get? "n" = some (.number .nan) := by decide
  have same : (ofList [("a", .text "x"), ("b", .bool true), ("a", .number .zero)]).same
      (ofList [("b", .bool true), ("a", .number Binary64.zero.neg)]) = true := by
    decide
  refine ⟨⟨back.trans (congrArg some before), by decide⟩,
    ⟨nan, by decide, unequal _ _ _ _ nan (by decide)⟩, same, unseen _ _ same _ _⟩

end Record

end Sieve
