import Mathlib.Data.List.Forall2
import Mathlib.Order.Bounds.Defs
import Mathlib.Order.MinMax
import Sieve.Text.Basic

/-!
The edit distance is the length of a shortest edit script. A script may edit anywhere and in any
order, while the distance is computed from front to back; so each single edit is shown to bring a
text nearer to another by no more than one, wherever it happens.
-/

namespace Sieve.Text

/-- One character is put in, taken out, or put in the place of another. -/
inductive Edit : List Char → List Char → Prop
  | insert (before : List Char) (c : Char) (after : List Char) :
      Edit (before ++ after) (before ++ c :: after)
  | delete (before : List Char) (c : Char) (after : List Char) :
      Edit (before ++ c :: after) (before ++ after)
  | substitute (before : List Char) (c d : Char) (after : List Char) :
      Edit (before ++ c :: after) (before ++ d :: after)

/-- So many edits, one after another, that make one text of another. -/
inductive Script : Nat → List Char → List Char → Prop
  | nil (xs : List Char) : Script 0 xs xs
  | cons {n : Nat} {xs ys zs : List Char} : Edit xs ys → Script n ys zs → Script (n + 1) xs zs

variable {xs ys zs : List Char} {x y c d : Char} {n : Nat}

/-- The row of a text has its distance first, and then the row for what follows the first character
of the other text. -/
theorem distanceRow_cons (xs : List Char) (y : Char) (ys : List Char) :
    distanceRow xs (y :: ys) = editDistance xs (y :: ys) :: distanceRow xs ys := by
  induction xs with
  | nil => rfl
  | cons x xs ih =>
    have row : distanceRow (x :: xs) (y :: ys) = nextRow x (y :: ys) (distanceRow xs (y :: ys)) :=
      rfl
    rw [editDistance, row, ih]
    rfl

theorem distanceRow_nil (xs : List Char) : distanceRow xs [] = [xs.length] := by
  induction xs with
  | nil => rfl
  | cons x xs ih =>
    have row : distanceRow (x :: xs) [] = nextRow x [] (distanceRow xs []) := rfl
    rw [row, ih]
    rfl

@[simp] theorem editDistance_nil_right (xs : List Char) : editDistance xs [] = xs.length := by
  rw [editDistance, distanceRow_nil]
  rfl

@[simp] theorem editDistance_nil_left (ys : List Char) : editDistance [] ys = ys.length := by
  cases ys <;> rfl

theorem editDistance_cons_cons (x : Char) (xs : List Char) (y : Char) (ys : List Char) :
    editDistance (x :: xs) (y :: ys) =
      min (editDistance xs (y :: ys) + 1)
        (min (editDistance (x :: xs) ys + 1) (editDistance xs ys + if x = y then 0 else 1)) := by
  have row : distanceRow (x :: xs) (y :: ys) = nextRow x (y :: ys) (distanceRow xs (y :: ys)) := rfl
  rw [editDistance, row, distanceRow_cons]
  rfl

/-! ### A script of that length -/

theorem Edit.cons (c : Char) (h : Edit xs ys) : Edit (c :: xs) (c :: ys) := by
  cases h with
  | insert before d after => exact .insert (c :: before) d after
  | delete before d after => exact .delete (c :: before) d after
  | substitute before d e after => exact .substitute (c :: before) d e after

theorem Script.behind (c : Char) (h : Script n xs ys) : Script n (c :: xs) (c :: ys) := by
  induction h with
  | nil xs => exact .nil _
  | cons edit _ ih => exact .cons (edit.cons c) ih

/-- Going through both texts from the front, one of the three edits or none is the best. -/
theorem script_editDistance (xs ys : List Char) : Script (editDistance xs ys) xs ys := by
  induction xs generalizing ys with
  | nil =>
    rw [editDistance_nil_left]
    induction ys with
    | nil => exact .nil []
    | cons y ys ih => exact .cons (.insert [] y []) (ih.behind y)
  | cons x xs ihx =>
    induction ys with
    | nil =>
      have deleted := ihx []
      rw [editDistance_nil_right] at deleted ⊢
      exact .cons (.delete [] x xs) deleted
    | cons y ys ihy =>
      have delete : Script (editDistance xs (y :: ys) + 1) (x :: xs) (y :: ys) :=
        .cons (.delete [] x xs) (ihx (y :: ys))
      have insert : Script (editDistance (x :: xs) ys + 1) (x :: xs) (y :: ys) :=
        .cons (.insert [] y (x :: xs)) (ihy.behind y)
      have substitute :
          Script (editDistance xs ys + if x = y then 0 else 1) (x :: xs) (y :: ys) := by
        by_cases same : x = y
        · subst same
          simpa using (ihx ys).behind x
        · simpa [same] using Script.cons (.substitute [] x y xs) ((ihx ys).behind y)
      rw [editDistance_cons_cons]
      rcases min_choice (editDistance xs (y :: ys) + 1) (min (editDistance (x :: xs) ys + 1)
        (editDistance xs ys + if x = y then 0 else 1)) with first | others
      · rwa [first]
      · rw [others]
        rcases min_choice (editDistance (x :: xs) ys + 1)
          (editDistance xs ys + if x = y then 0 else 1) with second | third
        · rwa [second]
        · rwa [third]

/-! ### No shorter script -/

theorem editDistance_cons_right_le (xs : List Char) (y : Char) (ys : List Char) :
    editDistance xs (y :: ys) ≤ editDistance xs ys + 1 := by
  cases xs with
  | nil => simp
  | cons x xs =>
    rw [editDistance_cons_cons]
    exact Nat.le_trans (Nat.min_le_right _ _) (Nat.min_le_left _ _)

/-- From the first text it is at most one edit more to any other text than from the second. -/
def Near (xs ys : List Char) : Prop := ∀ zs, editDistance xs zs ≤ editDistance ys zs + 1

theorem near_delete (c : Char) (xs : List Char) : Near (c :: xs) xs := by
  intro zs
  cases zs with
  | nil => simp
  | cons z zs =>
    rw [editDistance_cons_cons]
    exact Nat.min_le_left _ _

theorem near_insert (c : Char) (xs : List Char) : Near xs (c :: xs) := by
  intro zs
  induction zs with
  | nil => simp; omega
  | cons z zs ih =>
    have longer := editDistance_cons_right_le xs z zs
    rw [editDistance_cons_cons]
    omega

theorem near_substitute (c d : Char) (xs : List Char) : Near (c :: xs) (d :: xs) := by
  intro zs
  induction zs with
  | nil => simp
  | cons z zs ih =>
    rw [editDistance_cons_cons, editDistance_cons_cons]
    split <;> split <;> omega

theorem Near.cons (c : Char) (h : Near xs ys) : Near (c :: xs) (c :: ys) := by
  intro zs
  induction zs with
  | nil => simpa using h []
  | cons z zs ih =>
    have here := h (z :: zs)
    have there := h zs
    rw [editDistance_cons_cons, editDistance_cons_cons]
    omega

theorem near_of_edit (h : Edit xs ys) : Near xs ys := by
  have behind {xs ys : List Char} (before : List Char) (near : Near xs ys) :
      Near (before ++ xs) (before ++ ys) := by
    induction before with
    | nil => exact near
    | cons c before ih => exact ih.cons c
  cases h with
  | insert before c after => exact behind before (near_insert c after)
  | delete before c after => exact behind before (near_delete c after)
  | substitute before c d after => exact behind before (near_substitute c d after)

theorem editDistance_self (xs : List Char) : editDistance xs xs = 0 := by
  induction xs with
  | nil => rfl
  | cons x xs ih => simp [editDistance_cons_cons, ih]

theorem editDistance_le_of_script (h : Script n xs ys) : editDistance xs ys ≤ n := by
  induction h with
  | nil xs => exact Nat.le_of_eq (editDistance_self xs)
  | cons edit _ ih => exact Nat.le_trans (near_of_edit edit _) (Nat.succ_le_succ ih)

/-- **The distance is that of a shortest script.** -/
theorem isLeast_editDistance (xs ys : List Char) :
    IsLeast {n | Script n xs ys} (editDistance xs ys) :=
  ⟨script_editDistance xs ys, fun _ => editDistance_le_of_script⟩

/-! ### Characters that the other text does not have -/

theorem nextRow_congr (same : ∀ y ∈ ys, x = y ↔ c = y) (row : List Nat) :
    nextRow x ys row = nextRow c ys row := by
  induction ys generalizing row with
  | nil => cases row <;> rfl
  | cons y ys ih =>
    obtain ⟨here, later⟩ := List.forall_mem_cons.mp same
    cases row with
    | nil => rfl
    | cons deleted below => simp only [nextRow, ih later below, here]

/-- Which of the characters that are not in the other text stands somewhere makes no difference. -/
theorem editDistance_congr {xs' : List Char}
    (same : List.Forall₂ (fun x c => ∀ y ∈ ys, x = y ↔ c = y) xs xs') :
    editDistance xs ys = editDistance xs' ys := by
  have rows : distanceRow xs ys = distanceRow xs' ys := by
    induction same with
    | nil => rfl
    | cons alike _ ih =>
      simp only [distanceRow, List.foldr_cons] at ih ⊢
      rw [ih, nextRow_congr alike]
  rw [editDistance, editDistance, rows]

end Sieve.Text
