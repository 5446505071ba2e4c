import Sieve.Proofs.Filter.Place

/-!
The grammar of filters in JSON, stated without the decoder: a value denotes a leaf by the keys of
the leaf, and a combinator by the items that denote its children, in their order. Decoding accepts
exactly the values that denote a filter, and whatever else stands in a value, a node that cannot be
decoded takes no other node with it.
-/

namespace Sieve

/-- Two values agree in the keys that a node is read from. Of `filters` it only matters whether a
list stands there. -/
structure Json.SameKeys (v w : Json) : Prop where
  type : v.key? "type" = w.key? "type"
  field : v.key? "field" = w.key? "field"
  operation : v.key? "operation" = w.key? "operation"
  value : v.key? "value" = w.key? "value"
  filters : (∃ items, v.key? "filters" = some (.array items)) ↔
    ∃ items, w.key? "filters" = some (.array items)

theorem Json.SameKeys.symm {v w : Json} (same : v.SameKeys w) : w.SameKeys v :=
  ⟨same.type.symm, same.field.symm, same.operation.symm, same.value.symm, same.filters.symm⟩

theorem Leaf.StandsIn.of_sameKeys {l : Leaf} {v w : Json} (h : l.StandsIn v)
    (same : v.SameKeys w) : l.StandsIn w where
  type := same.type ▸ h.type
  field := same.field ▸ h.field
  operation := same.operation ▸ h.operation
  literal := same.value ▸ h.literal

theorem Combinator.StandsIn.of_sameKeys {c : Combinator} {items : List Json} {v w : Json}
    (h : c.StandsIn items v) (same : v.SameKeys w) : ∃ others, c.StandsIn others w := by
  obtain ⟨others, listed⟩ := same.filters.mp ⟨items, h.filters⟩
  exact ⟨others, same.type ▸ h.type, listed⟩

namespace Filter

/-- A value is in the grammar and denotes this filter. Keys that the kind of a node does not have
mean nothing. -/
inductive Denotes : Json → Filter → Prop
  | leaf {v : Json} {l : Leaf} (keys : l.StandsIn v) : Denotes v (.leaf l)
  | combine {v : Json} {c : Combinator} {items : List Json} {children : List Filter}
      (keys : c.StandsIn items v) (each : List.Forall₂ Denotes items children) :
      Denotes v (.combine c children)

variable {v w : Json} {f g : Filter} {path : Path}

/-- The induction goes over the filter, whose constructor says which rule a derivation ends with. -/
theorem denotes_iff : Denotes v f ↔ (ofJson v).Whole ∧ ofJson v = f := by
  induction f generalizing v with
  | leaf l =>
    constructor
    · rintro (keys | _)
      rw [ofJson_leaf keys]
      exact ⟨whole_leaf l, rfl⟩
    · rintro ⟨_, made⟩
      exact .leaf (ofJson_eq_leaf_iff.mp made)
  | unsupported reason raw =>
    constructor
    · intro h
      cases h
    · rintro ⟨whole, made⟩
      rw [made] at whole
      exact absurd whole (not_whole_unsupported reason raw)
  | combine c children ih =>
    constructor
    · rintro (_ | ⟨keys, each⟩)
      have decoded := forall₂_imp_of_mem each fun _ _ f hf denotes => (ih f hf).mp denotes
      obtain ⟨whole, same⟩ := (List.forall₂_and_left _ _).mp decoded
      rw [← List.forall₂_map_left_iff, List.forall₂_eq_eq_eq] at same
      rw [ofJson_combinator keys, same, whole_combine_iff, ← same]
      exact ⟨List.forall_mem_map.mpr whole, rfl⟩
    · rintro ⟨whole, made⟩
      rw [made, whole_combine_iff] at whole
      obtain ⟨items, keys, rfl⟩ := ofJson_eq_combine_iff.mp made
      refine .combine keys ?_
      rw [List.forall₂_map_right_iff, List.forall₂_same]
      intro w hw
      have child : ofJson w ∈ items.map ofJson := List.mem_map_of_mem hw
      exact (ih (ofJson w) child).mpr ⟨whole _ child, rfl⟩

theorem isUnsupported_ofJson_eq_false_iff :
    (ofJson v).isUnsupported = false ↔
      (∃ l : Leaf, l.StandsIn v) ∨ ∃ (c : Combinator) (items : List Json), c.StandsIn items v := by
  constructor
  · intro decoded
    rcases ofJson_cases v with ⟨l, keys, _⟩ | ⟨c, items, keys, _⟩ | ⟨rejection, made⟩
    · exact Or.inl ⟨l, keys⟩
    · exact Or.inr ⟨c, items, keys⟩
    · rw [made] at decoded
      cases decoded
  · rintro (⟨l, keys⟩ | ⟨c, items, keys⟩)
    · rw [ofJson_leaf keys]
      rfl
    · rw [ofJson_combinator keys]
      rfl

theorem isUnsupported_of_sameKeys (same : v.SameKeys w) :
    (ofJson v).isUnsupported = (ofJson w).isUnsupported := by
  have decoded {v w : Json} (same : v.SameKeys w) (h : (ofJson v).isUnsupported = false) :
      (ofJson w).isUnsupported = false := by
    rw [isUnsupported_ofJson_eq_false_iff] at h ⊢
    rcases h with ⟨l, keys⟩ | ⟨c, items, keys⟩
    · exact Or.inl ⟨l, keys.of_sameKeys same⟩
    · exact Or.inr ⟨c, keys.of_sameKeys same⟩
  cases h : (ofJson w).isUnsupported with
  | false => exact decoded same.symm h
  | true =>
    refine Bool.of_not_eq_false fun other => ?_
    rw [decoded same other] at h
    cases h

/-- **Decoding accepts exactly the grammar.** What a value decodes to is valid if and only if the
value is in the grammar, and then it is the filter that the value denotes. In any case a node is
decoded from the value at its path. Its own keys alone say whether it is unsupported, and a
combinator has every one of its items for a child, decoded by itself whatever the others are. -/
theorem decodes_grammar (v : Json) :
    ((ofJson v).validate = .ok () ↔ ∃ f, Denotes v f) ∧
    (∀ f, Denotes v f → ofJson v = f) ∧
    ∀ path g, (ofJson v).node? path = some g → ∃ w, v.follow? path = some w ∧ g = ofJson w ∧
      (∀ u, w.SameKeys u → (ofJson u).isUnsupported = g.isUnsupported) ∧
      ∀ (c : Combinator) (items : List Json), c.StandsIn items w →
        g = .combine c (items.map ofJson) := by
  refine ⟨?_, fun f denotes => (denotes_iff.mp denotes).2, fun path g here => ?_⟩
  · rw [validate_eq_ok_iff]
    constructor
    · intro whole
      exact ⟨ofJson v, denotes_iff.mpr ⟨whole, rfl⟩⟩
    · rintro ⟨f, denotes⟩
      exact (denotes_iff.mp denotes).1
  · obtain ⟨w, followed, rfl⟩ := exists_follow?_of_node? here
    exact ⟨w, followed, rfl, fun u same => isUnsupported_of_sameKeys same.symm,
      fun c items => ofJson_combinator⟩

/-- A whole number under an `or`, among keys that neither node reads. -/
def withForeignKeys : Json :=
  .object [("field", .null),
    ("filters", .array [.object [("field", .string "age"), ("filters", .bool true),
      ("operation", .string "gte"), ("type", .string "number"),
      ("value", .number (.whole 18 (by decide) (by decide)))]]),
    ("type", .string "or")]

/-- The same `or` over an item that cannot be decoded. -/
def withMalformedItem : Json :=
  .object [("field", .null), ("filters", .array [.null]), ("type", .string "or")]

theorem foreign_keys_ignored :
    (ofJson withForeignKeys).validate = .ok () ∧
    ofJson withForeignKeys = .or [.number "age" .gte (.ofInt 18)] ∧
    (ofJson withMalformedItem).isUnsupported = (ofJson withForeignKeys).isUnsupported ∧
    ofJson withForeignKeys = .combine .or (withForeignKeys.filters.map ofJson) := by
  have denotes : Denotes withForeignKeys (.or [.number "age" .gte (.ofInt 18)]) :=
    .combine ⟨rfl, rfl⟩ (.cons (.leaf ⟨rfl, rfl, rfl, _, rfl, _, rfl, rfl⟩) .nil)
  obtain ⟨valid, denoted, nodes⟩ := decodes_grammar withForeignKeys
  obtain ⟨root, here, _, alike, children⟩ := nodes [] _ rfl
  cases here
  have same : withForeignKeys.SameKeys withMalformedItem :=
    ⟨rfl, rfl, rfl, rfl, fun _ => ⟨_, rfl⟩, fun _ => ⟨_, rfl⟩⟩
  exact ⟨valid.mpr ⟨_, denotes⟩, denoted _ denotes, alike _ same, children .or _ ⟨rfl, rfl⟩⟩

end Filter

end Sieve
