import Sieve.Json.Read
import Sieve.Proofs.Assoc
import Sieve.Proofs.Traversal

/-!
Readers alongside each other. A reader that does more with what it reads than another one still
passes the same characters, and so do readers of objects that differ only in what they do with the
values of the members.
-/

namespace Sieve.Json.Reader

open Assoc (Named)

variable {α β : Type} {plain : Reader β} {item : Reader α} {R : β → α → Prop}

/-- What one reader takes, the plainer one takes too: the same characters, and a related result. -/
def Covers (plain : Reader β) (item : Reader α) (R : β → α → Prop) : Prop :=
  ∀ cs a rest, item cs = .ok (a, rest) → ∃ b, plain cs = .ok (b, rest) ∧ R b a

theorem member_covers (h : Covers plain item R) : Covers (member plain) (member item) (Named R) := by
  intro cs entry rest read
  obtain ⟨⟨name, afterName⟩, quotes, read⟩ := bind_eq_ok_iff.mp read
  obtain ⟨⟨⟨⟩, afterColon⟩, passes, read⟩ := bind_eq_ok_iff.mp read
  obtain ⟨⟨a, afterValue⟩, value, read⟩ := bind_eq_ok_iff.mp read
  cases read
  obtain ⟨b, covered, related⟩ := h _ _ _ value
  refine ⟨(name, b), ?_, rfl, related⟩
  simp only [member, quotes, passes, covered, bind, Except.bind]
  rfl

theorem nextMember_covers (h : Covers plain item R) :
    Covers (nextMember plain) (nextMember item) (Option.Rel (Named R)) := by
  intro cs entry? rest read
  obtain ⟨⟨name?, afterName⟩, opens, read⟩ := bind_eq_ok_iff.mp read
  cases name? with
  | none =>
    cases read
    refine ⟨none, ?_, .none⟩
    simp only [nextMember, opens, bind, Except.bind]
    rfl
  | some _ =>
    obtain ⟨⟨entry, afterEntry⟩, found, read⟩ := bind_eq_ok_iff.mp read
    cases read
    obtain ⟨other, covered, related⟩ := member_covers h _ _ _ found
    refine ⟨some other, ?_, .some related⟩
    simp only [nextMember, opens, covered, bind, Except.bind]
    rfl

/-- Both loops take the same rounds, since every round passes the same characters. -/
theorem collect_go_covers {step : Reader (Option α)} {step' : Reader (Option β)}
    (h : Covers step' step (Option.Rel R)) (rounds : Nat) {held : List α} {held' : List β}
    (already : List.Forall₂ R held' held) :
    Covers (collect.go step' rounds held') (collect.go step rounds held) (List.Forall₂ R) := by
  induction rounds generalizing held held' with
  | zero => intro cs as rest read; cases read
  | succ rounds ih =>
    intro cs as rest read
    rw [collect.go] at read
    cases round : step cs with
    | error stop => rw [round] at read; cases read
    | ok found =>
      obtain ⟨a?, after⟩ := found
      rw [round] at read
      obtain ⟨b?, covered, related⟩ := h _ _ _ round
      cases related with
      | none =>
        cases read
        refine ⟨held'.reverse, ?_, List.rel_reverse already⟩
        rw [collect.go, covered]
      | some related =>
        obtain ⟨bs, later, all⟩ := ih (.cons related already) _ _ _ read
        refine ⟨bs, ?_, all⟩
        rw [collect.go, covered]
        exact later

theorem members_covers (h : Covers plain item R) :
    Covers (members plain) (members item) (List.Forall₂ (Named R)) := by
  intro cs entries rest read
  obtain ⟨⟨name?, afterName⟩, opens, read⟩ := bind_eq_ok_iff.mp read
  cases name? with
  | none =>
    cases read
    refine ⟨[], ?_, .nil⟩
    simp only [members, opens, bind, Except.bind]
    rfl
  | some _ =>
    obtain ⟨⟨entry, afterEntry⟩, found, read⟩ := bind_eq_ok_iff.mp read
    obtain ⟨other, covered, related⟩ := member_covers h _ _ _ found
    have first : List.Forall₂ (Named R) [other].reverse [entry].reverse := .cons related .nil
    obtain ⟨others, later, all⟩ :=
      collect_go_covers (nextMember_covers h) _ first _ _ _ read
    refine ⟨others, ?_, all⟩
    simp only [members, opens, covered, bind, Except.bind]
    exact later

end Sieve.Json.Reader
