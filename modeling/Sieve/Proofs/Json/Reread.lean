import Sieve.Json.Read
import Sieve.Proofs.Json.Number
import Sieve.Proofs.Json.Quoted
import Sieve.Proofs.Traversal

/-!
Values through JSON text. Reading what was written comes to a function of the value alone: every
number becomes what its text reads as, every object the one that holds the last value of each name,
and a bracket past the budget stops it. No text is involved in that function, and nothing that
stands after the value.
-/

namespace Sieve.Json

/-- Induction over the values in a value, the items or members of one all at once. -/
@[elab_as_elim, induction_eliminator]
theorem valueInduction {motive : Json → Prop} (null : motive .null) (bool : ∀ b, motive (.bool b))
    (number : ∀ n, motive (.number n)) (string : ∀ s, motive (.string s))
    (array : ∀ items, (∀ v ∈ items, motive v) → motive (.array items))
    (object : ∀ members : List (String × Json), (∀ entry ∈ members, motive entry.2) →
      motive (.object members)) (v : Json) : motive v := by
  refine @Json.rec motive (fun items => ∀ v ∈ items, motive v)
    (fun members => ∀ entry ∈ members, motive entry.2) (fun entry => motive entry.2)
    null bool number string array object ?_ ?_ ?_ ?_ ?_ v
  · intro v hv
    cases hv
  · intro v rest hv hrest w hw
    rcases List.mem_cons.mp hw with rfl | hw
    · exact hv
    · exact hrest w hw
  · intro entry hentry
    cases hentry
  · intro entry rest hentry hrest other hother
    rcases List.mem_cons.mp hother with rfl | hother
    · exact hentry
    · exact hrest other hother
  · intro _ v hv
    exact hv

/-- What a number reads back as from its own text. -/
def Number.reread (n : Number) : Except Cause Number :=
  match Reader.number n.write with
  | .ok (m, _) => .ok m
  | .error stop => .error stop.cause

mutual

/-- What a value reads back as, or why it does not, when so many brackets may be open at once. -/
def reread (budget : Nat) (v : Json) : Except Cause Json :=
  match v with
  | .null => .ok .null
  | .bool b => .ok (.bool b)
  | .number n => n.reread.map .number
  | .string s => .ok (.string s)
  | .array items =>
    match budget with
    | 0 => .error .tooDeep
    | budget + 1 => (rereadItems budget items).map .array
  | .object members =>
    match budget with
    | 0 => .error .tooDeep
    | budget + 1 => (rereadMembers budget members).map ofMembers
termination_by structural v

def rereadItems (budget : Nat) (items : List Json) : Except Cause (List Json) :=
  match items with
  | [] => .ok []
  | v :: rest => do
    let w ← reread budget v
    let ws ← rereadItems budget rest
    pure (w :: ws)
termination_by structural items

def rereadMembers (budget : Nat) (members : List (String × Json)) :
    Except Cause (List (String × Json)) :=
  match members with
  | [] => .ok []
  | (name, v) :: rest => do
    let w ← reread budget v
    let ws ← rereadMembers budget rest
    pure ((name, w) :: ws)
termination_by structural members

end

theorem rereadItems_eq_mapM (budget : Nat) (items : List Json) :
    rereadItems budget items = items.mapM (reread budget) := by
  induction items with
  | nil => rfl
  | cons v rest ih => rw [rereadItems, List.mapM_cons, ih]

def rereadMember (budget : Nat) (entry : String × Json) : Except Cause (String × Json) :=
  (reread budget entry.2).map (entry.1, ·)

theorem rereadMembers_eq_mapM (budget : Nat) (members : List (String × Json)) :
    rereadMembers budget members = members.mapM (rereadMember budget) := by
  induction members with
  | nil => rfl
  | cons entry rest ih =>
    rw [rereadMembers, List.mapM_cons, ih, rereadMember]
    cases reread budget entry.2 <;> rfl

/-- More brackets may be open than were needed. -/
theorem reread_mono {v w : Json} {budget more : Nat} (read : reread budget v = .ok w)
    (h : budget ≤ more) : reread more v = .ok w := by
  induction v generalizing budget more w with
  | null => exact read
  | bool b => exact read
  | number n => exact read
  | string s => exact read
  | array items ih =>
    cases budget with
    | zero => cases read
    | succ budget =>
      obtain ⟨more, rfl⟩ := Nat.exists_eq_succ_of_ne_zero (by omega : more ≠ 0)
      rw [reread, map_eq_ok_iff] at read ⊢
      simp only [rereadItems_eq_mapM] at read ⊢
      obtain ⟨results, oks, made⟩ := read
      exact ⟨results, mapM_mono oks fun v hv w ok => ih v hv ok (by omega), made⟩
  | object members ih =>
    cases budget with
    | zero => cases read
    | succ budget =>
      obtain ⟨more, rfl⟩ := Nat.exists_eq_succ_of_ne_zero (by omega : more ≠ 0)
      rw [reread, map_eq_ok_iff] at read ⊢
      simp only [rereadMembers_eq_mapM] at read ⊢
      obtain ⟨results, oks, made⟩ := read
      refine ⟨results, mapM_mono oks fun entry hentry entry' ok => ?_, made⟩
      rw [rereadMember, map_eq_ok_iff] at ok ⊢
      obtain ⟨w, value, named⟩ := ok
      exact ⟨w, ih entry hentry value (by omega), named⟩

/-- A reader that met a written value took all of it with this result. -/
def Reads {α : Type} (read : Except Stop (α × List Char)) (result : Except Cause α)
    (rest : List Char) : Prop :=
  match result with
  | .ok a => read = .ok (a, rest)
  | .error cause => ∃ unread, read = .error ⟨cause, unread⟩

theorem Reads.map {α β : Type} {read : Except Stop (α × List Char)} {result : Except Cause α}
    {rest : List Char} (h : Reads read result rest) (f : α → β) :
    Reads (do let (a, rest) ← read; pure (f a, rest)) (result.map f) rest := by
  cases result with
  | ok a =>
    change read = .ok (a, rest) at h
    rw [h]
    rfl
  | error cause =>
    obtain ⟨unread, h⟩ := h
    exact ⟨unread, by rw [h]; rfl⟩

/-- What follows a written value inside brackets ends a numeral. -/
theorem endsNumeral_cons {c : Char} (h : c ∈ [',', ']', '}']) (rest : List Char) :
    EndsNumeral (c :: rest) := by
  intro d hd
  cases hd
  simp only [List.mem_cons, List.not_mem_nil, or_false] at h
  rcases h with rfl | rfl | rfl <;> decide

theorem number_write (n : Number) {rest : List Char} (ends : EndsNumeral rest) :
    Reads (Reader.number (n.write ++ rest)) n.reread rest := by
  obtain ⟨m, proper, text⟩ := n.exists_write
  have alone := Reader.numeral_text .endOfValue proper endsNumeral_nil
  rw [List.append_nil] at alone
  rw [Number.reread, text, Reader.number, Reader.number, alone,
    Reader.numeral_text .endOfValue proper ends]
  simp only [bind, Except.bind]
  cases m.outcome with
  | number k => rfl
  | tooLarge unread => exact ⟨_, rfl⟩

end Sieve.Json

namespace Sieve

open Json

/-- The number that the text of a number reads as. -/
def Binary64.reread? (x : Binary64) : Option Binary64 :=
  match Reader.number (writeBinary64 x) with
  | .ok (n, _) => some n.toBinary64
  | .error _ => none

end Sieve
