import Sieve.Proofs.Json.Alongside
import Sieve.Proofs.Record.Fields
import Sieve.Record.Text

/-!
Records as they are loaded. A text that is read as a record is JSON, and what it comes to is what
the document comes to. A member that is null is no field, so putting null in place of values takes
just these fields out of the record.
-/

namespace Sieve

open Json
open Assoc (Named)

/-- The document with null for the values of the chosen members. -/
def Json.nulling (chosen : String → Bool) : Json → Json
  | .object members => .object (members.map fun entry =>
      (entry.1, if chosen entry.1 then .null else entry.2))
  | other => other

namespace Record

theorem entriesOfMembers_eq_ok_iff {members : List (String × Json)}
    {entries : List (String × Option FieldValue)} :
    entriesOfMembers members = .ok entries ↔
      List.Forall₂ (Named fun v value? => entryOfJson v = .ok value?) members entries := by
  induction members generalizing entries with
  | nil =>
    rw [List.forall₂_nil_left_iff]
    constructor
    · intro h
      cases h
      rfl
    · rintro rfl
      rfl
  | cons member rest ih =>
    rw [List.forall₂_cons_left_iff]
    constructor
    · intro h
      obtain ⟨value?, first, h⟩ := bind_eq_ok_iff.mp h
      obtain ⟨later, others, made⟩ := bind_eq_ok_iff.mp h
      cases made
      exact ⟨_, later, ⟨rfl, first⟩, ih.mp others, rfl⟩
    · rintro ⟨⟨name, value?⟩, later, ⟨same, first⟩, others, rfl⟩
      cases same
      exact bind_eq_ok_iff.mpr ⟨value?, first, bind_eq_ok_iff.mpr ⟨later, ih.mpr others, rfl⟩⟩

theorem ofJson_object_eq_ok_iff {members : List (String × Json)} {r : Record} :
    ofJson (.object members) = .ok r ↔
      ∃ entries, List.Forall₂ (Named fun v value? => entryOfJson v = .ok value?) members entries ∧
        ofEntries entries = r := by
  rw [ofJson, map_eq_ok_iff]
  simp only [entriesOfMembers_eq_ok_iff]

/-- Only an object is loaded. -/
theorem exists_members_of_ofJson {v : Json} {r : Record} (h : ofJson v = .ok r) :
    ∃ members, v = .object members := by
  cases v with
  | object members => exact ⟨members, rfl⟩
  | null => cases h
  | bool b => cases h
  | number n => cases h
  | string s => cases h
  | array items => cases h

/-- A name is a field if the last entry of the name has a value. -/
theorem get?_ofEntries (entries : List (String × Option FieldValue)) (name : String) :
    (ofEntries entries).get? name = (entries.reverse.lookup name).join := by
  have sorted := Assoc.sorted_ofList entries
  have kept := Assoc.sorted_filterMap sorted fun _ value? => value?
  change (Assoc.ofList ((Assoc.ofList entries).filterMap fun entry =>
    entry.2.map (entry.1, ·))).lookup name = _
  rw [Assoc.ofList_of_sorted kept, Assoc.lookup_filterMap sorted fun _ value? => value?,
    Assoc.lookup_ofList]
  cases entries.reverse.lookup name <;> rfl

/-- Only the last entry of a name counts. -/
theorem ofEntries_ofList (entries : List (String × Option FieldValue)) :
    ofEntries (Assoc.ofList entries) = ofEntries entries := by
  rw [ofEntries, Assoc.ofList_of_sorted (Assoc.sorted_ofList entries)]
  rfl

theorem entryValue_covers (budget : Nat) :
    Reader.Covers (Reader.value budget) (entryValue budget)
      fun v value? => entryOfJson v = .ok value? := by
  intro cs value? rest read
  obtain ⟨⟨v, after⟩, value, read⟩ := bind_eq_ok_iff.mp read
  cases entry : entryOfJson v with
  | error fault => simp only [entry] at read; cases read
  | ok found =>
    simp only [entry] at read
    cases read
    exact ⟨v, value, entry⟩

/-- A record is read as the value that stands there, and then taken from the value. -/
theorem reader_covers (budget : Nat) :
    Reader.Covers (Reader.value budget) (reader budget) fun v r => ofJson v = .ok r := by
  intro cs r rest read
  obtain ⟨⟨found, after⟩, scalar, read⟩ := bind_eq_ok_iff.mp read
  cases found with
  | map =>
    cases budget with
    | zero => cases read
    | succ inner =>
      obtain ⟨⟨entries, afterEntries⟩, entriesRead, read⟩ := bind_eq_ok_iff.mp read
      cases read
      obtain ⟨members, covered, named⟩ :=
        Reader.members_covers (entryValue_covers inner) _ _ _ entriesRead
      refine ⟨ofMembers members, ?_, ?_⟩
      · simp only [Reader.value, Reader.valueWith, scalar, covered, bind, Except.bind]
        rfl
      · exact ofJson_object_eq_ok_iff.mpr
          ⟨Assoc.ofList entries, Assoc.forall₂_ofList named, ofEntries_ofList entries⟩
  | null => cases read
  | bool b => cases read
  | number n => cases read
  | string s => cases read
  | sequence => cases read

/-- What a text is loaded as, its document is loaded as. -/
theorem ofJson_of_ofText {text : String} {r : Record} (h : ofText text = .ok r) :
    ∃ v, Json.ofText text = .ok v ∧ ofJson v = .ok r := by
  rw [ofText, Reader.run] at h
  cases read : reader bracketBudget text.toList with
  | error stop => simp only [read] at h; cases h
  | ok found =>
    obtain ⟨loaded, rest⟩ := found
    simp only [read] at h
    cases ends : endOfText rest with
    | error stop => simp only [ends] at h; cases h
    | ok _ =>
      simp only [ends] at h
      cases h
      obtain ⟨v, covered, taken⟩ := reader_covers bracketBudget _ _ _ read
      refine ⟨v, ?_, taken⟩
      rw [Json.ofText, Reader.run]
      simp only [covered, ends]

/-- The fields under the chosen names are gone, and the others are as they were. -/
theorem ofJson_nulling {v : Json} {r : Record} (h : ofJson v = .ok r) (chosen : String → Bool) :
    ∃ s, ofJson (v.nulling chosen) = .ok s ∧
      ∀ name, s.get? name = if chosen name then none else r.get? name := by
  obtain ⟨members, rfl⟩ := exists_members_of_ofJson h
  obtain ⟨entries, named, rfl⟩ := ofJson_object_eq_ok_iff.mp h
  refine ⟨ofEntries (entries.map fun entry => (entry.1, if chosen entry.1 then none else entry.2)),
    ofJson_object_eq_ok_iff.mpr ⟨_, ?_, rfl⟩, fun name => ?_⟩
  · rw [List.forall₂_map_left_iff, List.forall₂_map_right_iff]
    refine named.imp ?_
    rintro member entry ⟨same, value⟩
    refine ⟨same, ?_⟩
    change entryOfJson (if chosen member.1 then .null else member.2) =
      .ok (if chosen entry.1 then none else entry.2)
    rw [same]
    cases chosen entry.1 with
    | true => rfl
    | false => exact value
  · rw [get?_ofEntries, get?_ofEntries, ← List.map_reverse,
      Assoc.lookup_map fun name value? => if chosen name then none else value?]
    cases entries.reverse.lookup name <;> cases chosen name <;> rfl

/-- What is left of a record loaded with null for some of its members lies within the whole. -/
theorem within_of_nulling {v : Json} {r s : Record} {chosen : String → Bool}
    (whole : ofJson v = .ok r) (nulled : ofJson (v.nulling chosen) = .ok s) : s.Within r := by
  obtain ⟨s', loaded, fields⟩ := ofJson_nulling whole chosen
  rw [nulled] at loaded
  cases loaded
  intro name value held
  rw [fields name] at held
  cases picked : chosen name with
  | true => rw [picked] at held; cases held
  | false =>
    rw [picked] at held
    exact ⟨value, held, .refl value⟩

end Record

end Sieve
