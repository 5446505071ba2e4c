import Sieve.Proofs.Record.Decoding

/-!
Records through their own text. The fields may be written in any order, since every name stands
once. Text and booleans come back as they were and finite numbers as they read back; a number that
is not finite is written as null and comes back as no field, and a date comes back as its text.
-/

namespace Sieve

open Json

namespace FieldValue

/-- The value does not change its number on the way through text. -/
def Returns : FieldValue → Prop
  | .number x => x.isFinite = true → x.reread? = some x
  | .bool _ => True
  | .text _ => True
  | .date _ => True

/-- What a field holds after the way through text. -/
def reloaded? : FieldValue → Option FieldValue
  | .bool b => some (.bool b)
  | .number x => if x.isFinite then some (.number x) else none
  | .text s => some (.text s)
  | .date t => some (.text t.render)

theorem reloaded?_of_isPlain {v : FieldValue} (h : v.IsPlain) : v.reloaded? = some v := by
  cases v with
  | number x => exact if_pos h
  | date t => cases h
  | _ => rfl

/-- What comes back is plain: it is what was there, or the text of a date. -/
theorem reloaded?_cases {v w : FieldValue} (h : v.reloaded? = some w) :
    w.IsPlain ∧ (v = w ∨ ∃ s, w = .text s) := by
  cases v with
  | bool b => cases h; exact ⟨trivial, Or.inl rfl⟩
  | text s => cases h; exact ⟨trivial, Or.inl rfl⟩
  | date t => cases h; exact ⟨trivial, Or.inr ⟨_, rfl⟩⟩
  | number x =>
    by_cases finite : x.isFinite = true
    · simp only [reloaded?, finite, if_true] at h
      cases h
      exact ⟨finite, Or.inl rfl⟩
    · simp [reloaded?, finite] at h

theorem returns_of_reloaded? {v w : FieldValue} (returns : v.Returns) (h : v.reloaded? = some w) :
    w.Returns := by
  rcases (reloaded?_cases h).2 with rfl | ⟨s, rfl⟩
  · exact returns
  · trivial

/-- A number that comes back is spelled by what it is written as. -/
theorem spellsNumber_of_reread? {x : Binary64} (finite : x.isFinite = true)
    (h : x.reread? = some x) :
    ∃ n : Json.Number, SpellsNumber n (writeBinary64 x) ∧ n.toBinary64 = x := by
  obtain ⟨m, proper, text⟩ := (Json.Number.binary x finite).exists_write
  have spelled : m.Spells (writeBinary64 x) := by
    change m.Spells (Json.Number.binary x finite).write
    rw [text]
    exact m.spells_text
  have read := Reader.numeral_spelled .endOfValue proper spelled endsNumeral_nil
  rw [List.append_nil] at read
  simp only [Binary64.reread?, Reader.number, read, bind, Except.bind] at h
  cases outcome : m.outcome with
  | tooLarge unread => simp [outcome] at h
  | number n =>
    refine ⟨n, ⟨m, proper, spelled, outcome⟩, ?_⟩
    simpa [outcome, pure, Except.pure] using h

/-- What a value is written as spells a scalar, which stands for what the value comes back as. -/
theorem exists_spellsScalar {v : FieldValue} (returns : v.Returns) :
    ∃ w : Json, SpellsScalar w v.toJson.write ∧ w.field? = v.reloaded? := by
  cases v with
  | bool b => cases b with
    | true => exact ⟨.bool true, .true, rfl⟩
    | false => exact ⟨.bool false, .false, rfl⟩
  | text s => exact ⟨.string s, .string (spellsString_quote s), rfl⟩
  | date t => exact ⟨.string t.render, .string (spellsString_quote t.render), rfl⟩
  | number x =>
    by_cases finite : x.isFinite = true
    · obtain ⟨n, spelled, same⟩ := spellsNumber_of_reread? finite (returns finite)
      have written : (number x).toJson.write = writeBinary64 x := by
        simp only [toJson, ofBinary64, dif_pos finite]
        rfl
      refine ⟨.number n, ?_, ?_⟩
      · rw [written]
        exact .number spelled
      · simp [field?, reloaded?, finite, same]
    · have written : (number x).toJson.write = "null".toList := by
        simp only [toJson, ofBinary64, dif_neg finite]
        rfl
      refine ⟨.null, ?_, ?_⟩
      · rw [written]
        exact .null
      · simp [field?, reloaded?, finite]

end FieldValue

namespace Record

/-- The compact text of a record whose fields are written in this order. -/
def renderIn (order : List (String × FieldValue)) : String :=
  (Json.object (order.map fun field => (field.1, field.2.toJson))).render

theorem render_eq_renderIn (r : Record) : r.render = renderIn r.fields := rfl

/-- The fields as they come back, those left out that come back as none. -/
def reloaded (r : Record) : Record :=
  ⟨r.fields.filterMap fun field => field.2.reloaded?.map (field.1, ·),
    Assoc.sorted_filterMap r.sorted fun _ value => value.reloaded?⟩

theorem get?_reloaded (r : Record) (name : String) :
    r.reloaded.get? name = (r.get? name).bind FieldValue.reloaded? :=
  Assoc.lookup_filterMap r.sorted (fun _ value => value.reloaded?) name

/-- Every field is written as a member whose value is a scalar. -/
theorem exists_spells_fields {order : List (String × FieldValue)}
    (returns : ∀ field ∈ order, field.2.Returns) :
    ∃ entries, List.Forall₂ (SpellsMember SpellsScalar) entries
        (order.map fun field => writeMember field.1 field.2.toJson.write) ∧
      (∀ entry ∈ entries, entry.2.isScalar = true) ∧
      entries.map (fun entry => (entry.1, entry.2.field?)) =
        order.map fun field => (field.1, field.2.reloaded?) := by
  induction order with
  | nil => exact ⟨[], .nil, by simp, rfl⟩
  | cons field order ih =>
    obtain ⟨here, later⟩ := List.forall_mem_cons.mp returns
    obtain ⟨entries, spelled, scalars, values⟩ := ih later
    obtain ⟨w, scalar, value⟩ := FieldValue.exists_spellsScalar here
    refine ⟨(field.1, w) :: entries, .cons (spellsMember_write scalar) spelled, ?_, ?_⟩
    · exact List.forall_mem_cons.mpr ⟨isScalar_of_spelled scalar, scalars⟩
    · rw [List.map_cons, List.map_cons, values, value]

theorem toList_renderIn (order : List (String × FieldValue)) :
    (renderIn order).toList = '{' :: (List.intercalate [',']
      (order.map fun field => writeMember field.1 field.2.toJson.write) ++ ['}']) := by
  rw [renderIn, Json.render, String.toList_ofList, Json.write, writeMembers_eq_map, List.map_map]
  rfl

/-- Written in any order, a record is loaded as what its fields come back as. -/
theorem ofText_renderIn {r : Record} (returns : ∀ field ∈ r.fields, field.2.Returns)
    {order : List (String × FieldValue)} (perm : order.Perm r.fields) :
    ofText (renderIn order) = .ok r.reloaded := by
  have returns' : ∀ field ∈ order, field.2.Returns :=
    fun field hfield => returns field (perm.mem_iff.mp hfield)
  obtain ⟨entries, spelled, scalars, values⟩ := exists_spells_fields returns'
  have whole : SpellsWhole (SpellsObject 0) entries (renderIn order) :=
    ⟨[], _, [], blanks_nil, ⟨_, spellsEntries_intercalate spelled, rfl⟩, blanks_nil,
      by rw [toList_renderIn]; simp⟩
  refine (ofText_eq_ok_iff whole).mpr ⟨scalars, ?_⟩
  apply eq_of_get?_eq
  intro name
  -- Every name stands once, so its last entry is its only one, wherever that stands.
  have found : order.reverse.lookup name = r.get? name :=
    Assoc.lookup_perm (Assoc.nodup_names r.sorted) (order.reverse_perm.trans perm) name
  have looked := Assoc.lookup_map (fun _ value => FieldValue.reloaded? value) name order.reverse
  rw [values, get?_ofEntries, ← List.map_reverse, looked, found, get?_reloaded]
  cases r.get? name <;> rfl

theorem reloaded_of_isPlain {r : Record} (plain : ∀ field ∈ r.fields, field.2.IsPlain) :
    r.reloaded = r := by
  apply eq_of_get?_eq
  intro name
  rw [get?_reloaded]
  cases held : r.get? name with
  | none => rfl
  | some value =>
    have listed : (name, value) ∈ r.fields :=
      (Assoc.lookup_eq_some_iff_mem (Assoc.nodup_names r.sorted)).mp held
    exact FieldValue.reloaded?_of_isPlain (plain _ listed)

/-- Every field that came back was a field. -/
theorem exists_of_mem_reloaded {r : Record} {field : String × FieldValue}
    (h : field ∈ r.reloaded.fields) :
    ∃ value, (field.1, value) ∈ r.fields ∧ value.reloaded? = some field.2 := by
  obtain ⟨⟨name, value⟩, listed, made⟩ := List.mem_filterMap.mp h
  obtain ⟨back, reloaded, rfl⟩ := Option.map_eq_some_iff.mp made
  exact ⟨value, listed, reloaded⟩

/-- **The round trip of a record.** A record whose finite numbers read back as they were comes back
from its text, in whatever order its fields are written, with the same booleans, texts and finite
numbers, with no field for a number that is not finite, and with text for a date. So a record of
plain values comes back as it was, and whatever comes back would come back again. -/
theorem round_trip_in_any_order (r : Record) (returns : ∀ field ∈ r.fields, field.2.Returns) :
    ∃ s, ofText r.render = .ok s ∧
      (∀ order, order.Perm r.fields → ofText (renderIn order) = .ok s) ∧
      (∀ name, s.get? name = (r.get? name).bind FieldValue.reloaded?) ∧
      ((∀ field ∈ r.fields, field.2.IsPlain) → s = r) ∧
      ∀ order, order.Perm s.fields → ofText (renderIn order) = .ok s := by
  have own_order : ofText r.render = .ok r.reloaded := by
    rw [render_eq_renderIn]
    exact ofText_renderIn returns (.refl _)
  refine ⟨r.reloaded, own_order, fun order perm => ofText_renderIn returns perm, get?_reloaded r,
    reloaded_of_isPlain, ?_⟩
  intro order perm
  have returns' : ∀ field ∈ r.reloaded.fields, field.2.Returns := by
    intro field hfield
    obtain ⟨value, listed, back⟩ := exists_of_mem_reloaded hfield
    exact FieldValue.returns_of_reloaded? (returns _ listed) back
  have plain : ∀ field ∈ r.reloaded.fields, field.2.IsPlain := by
    intro field hfield
    obtain ⟨value, _, back⟩ := exists_of_mem_reloaded hfield
    exact (FieldValue.reloaded?_cases back).1
  have again := ofText_renderIn returns' perm
  rw [reloaded_of_isPlain plain] at again
  exact again

/-- A record with a field of every kind, among them a number that is not finite. -/
def mixed : Record :=
  ⟨[("at", .date ⟨1687000000, 250000000, by decide, by decide, by decide⟩),
      ("na\"me", .text "é\n"), ("none", .number .nan), ("on", .bool true),
      ("size", .number ⟨0x4032000000000000⟩)],
    by unfold Assoc.Sorted; decide⟩

/-- The date comes back as text and the number that is not one does not. -/
theorem mixed_round_trip_reversed :
    ∃ s, ofText (renderIn mixed.fields.reverse) = .ok s ∧
      s.get? "at" = some (.text "2023-06-17T11:06:40.250Z") ∧
      s.get? "na\"me" = some (.text "é\n") ∧ s.get? "none" = none ∧
      s.get? "size" = some (.number ⟨0x4032000000000000⟩) := by
  have eighteen : (⟨0x4032000000000000⟩ : Binary64).reread? = some ⟨0x4032000000000000⟩ := by
    decide +kernel
  have not_finite : Binary64.nan.isFinite ≠ true := by decide
  have returns : ∀ field ∈ mixed.fields, field.2.Returns := by
    simp only [mixed, List.forall_mem_cons]
    exact ⟨trivial, trivial, fun finite => absurd finite not_finite, trivial, fun _ => eighteen,
      fun _ h => absurd h List.not_mem_nil⟩
  obtain ⟨s, _, orders, fields, _⟩ := round_trip_in_any_order mixed returns
  refine ⟨s, orders _ (List.reverse_perm _), ?_, ?_, ?_, ?_⟩
  all_goals
    rw [fields]
    decide +kernel

end Record

end Sieve
