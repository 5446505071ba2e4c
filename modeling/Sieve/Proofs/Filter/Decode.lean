import Sieve.Filter.Decode
import Sieve.Proofs.Traversal

/-!
What one node decodes to. The keys of its own kind settle whether it is a leaf, a combinator or
neither; what stands under other keys has no part in it, nor has anything within the items of a
combinator, each of which is decoded by itself.
-/

namespace Sieve

/-- What stands under a name, if this is an object that has it. -/
def Json.key? (name : String) : Json → Option Json
  | .object members => members.lookup name
  | _ => none

namespace Operation

/-- A kind of operation whose names tell the operations apart. -/
def Named (α : Type) [Operation α] : Prop :=
  ∀ operation : α, ofName? (name operation) = some operation

theorem named_string : Named StringOperation := by
  intro operation
  cases operation <;> rfl

theorem named_number : Named NumberOperation := by
  intro operation
  cases operation <;> rfl

theorem named_boolean : Named BooleanOperation := by
  intro operation
  cases operation
  rfl

theorem named_date : Named DateOperation := by
  intro operation
  cases operation <;> rfl

theorem ofName?_eq_some_iff {α : Type} [Operation α] (named : Named α) {text : String}
    {operation : α} : ofName? text = some operation ↔ text = name operation := by
  constructor
  · intro found
    rw [ofName?] at found
    have matched := List.find?_some found
    exact (beq_iff_eq.mp matched).symm
  · rintro rfl
    exact named operation

end Operation

theorem NodeKind.ofName?_eq_some_iff {text : String} {kind : NodeKind} :
    ofName? text = some kind ↔ text = kind.name := by
  constructor
  · intro found
    rw [ofName?] at found
    have matched := List.find?_some found
    exact (beq_iff_eq.mp matched).symm
  · rintro rfl
    cases kind with
    | leaf k => cases k <;> rfl
    | combinator c => cases c <;> rfl

namespace Leaf

/-- A value is what the literal of a leaf is read from. -/
def LiteralFrom (l : Leaf) (value : Json) : Prop :=
  match l with
  | .string c => value = .string c.literal
  | .number c => ∃ n, value = .number n ∧ n.toBinary64 = c.literal
  | .boolean c => value = .bool c.literal
  | .date c => ∃ s, value = .string s ∧ c.literal = .text s

/-- A node has the keys of this leaf. -/
structure StandsIn (l : Leaf) (v : Json) : Prop where
  type : v.key? "type" = some (.string l.kind.name)
  field : v.key? "field" = some (.string l.field)
  operation : v.key? "operation" = some (.string l.operationName)
  literal : ∃ value, v.key? "value" = some value ∧ l.LiteralFrom value

variable {members : List (String × Json)} {value : Json}

theorem stringUnder_eq_ok_iff {key s : String} :
    stringUnder key members = .ok s ↔ members.lookup key = some (.string s) := by
  rw [stringUnder]
  cases members.lookup key with
  | none => simp
  | some v => cases v <;> simp

theorem operationUnder_eq_ok_iff {Op : Type} [Operation Op] (named : Operation.Named Op)
    {kind : LeafKind} {operation : Op} :
    operationUnder kind members = .ok operation ↔
      members.lookup "operation" = some (.string (Operation.name operation)) := by
  rw [operationUnder, bind_eq_ok_iff]
  constructor
  · rintro ⟨text, under, known⟩
    cases found : (Operation.ofName? text : Option Op) with
    | none => rw [found] at known; cases known
    | some other =>
      rw [found] at known
      cases known
      rw [← (Operation.ofName?_eq_some_iff named).mp found]
      exact stringUnder_eq_ok_iff.mp under
  · intro under
    refine ⟨Operation.name operation, stringUnder_eq_ok_iff.mpr under, ?_⟩
    rw [named operation]
    rfl

theorem literalUnder_eq_ok_iff {Literal : Type} {literal? : Json → Option Literal}
    {wanted : String} {literal : Literal} :
    literalUnder literal? wanted members = .ok literal ↔
      ∃ value, members.lookup "value" = some value ∧ literal? value = some literal := by
  rw [literalUnder]
  cases members.lookup "value" with
  | none => simp
  | some value => cases h : literal? value <;> simp [h]

theorem comparison_eq_ok_iff {Op Literal : Type} [Operation Op] (named : Operation.Named Op)
    {kind : LeafKind} {literal? : Json → Option Literal} {wanted : String}
    {c : Comparison Op Literal} :
    comparison kind literal? wanted members = .ok c ↔
      members.lookup "field" = some (.string c.field) ∧
      members.lookup "operation" = some (.string (Operation.name c.operation)) ∧
      ∃ value, members.lookup "value" = some value ∧ literal? value = some c.literal := by
  rw [comparison]
  simp only [bind_eq_ok_iff, stringUnder_eq_ok_iff, operationUnder_eq_ok_iff named,
    literalUnder_eq_ok_iff]
  constructor
  · rintro ⟨field, under, operation, named, literal, given, made⟩
    cases made
    exact ⟨under, named, given⟩
  · rintro ⟨under, named, given⟩
    exact ⟨c.field, under, c.operation, named, c.literal, given, rfl⟩

/-- Where only the literal is not one of its kind, the error says what stands in its place. -/
theorem comparison_wrongLiteral {Op Literal : Type} [Operation Op] (named : Operation.Named Op)
    {kind : LeafKind} {literal? : Json → Option Literal} {wanted field : String} {operation : Op}
    (under : members.lookup "field" = some (.string field))
    (known : members.lookup "operation" = some (.string (Operation.name operation)))
    (given : members.lookup "value" = some value) (other : literal? value = none) :
    (comparison kind literal? wanted members : Except Rejection (Comparison Op Literal)) =
      .error (.wrongKind "value" wanted value.kind) := by
  have field_read := stringUnder_eq_ok_iff.mpr under
  have operation_read : operationUnder kind members = .ok operation :=
    (operationUnder_eq_ok_iff named).mpr known
  rw [comparison, field_read, operation_read, literalUnder, given]
  simp only [other]
  rfl

theorem stringLiteral?_eq_some_iff {s : String} :
    stringLiteral? value = some s ↔ value = .string s := by
  cases value <;> simp [stringLiteral?]

theorem numberLiteral?_eq_some_iff {x : Binary64} :
    numberLiteral? value = some x ↔ ∃ n, value = .number n ∧ n.toBinary64 = x := by
  cases value <;> simp [numberLiteral?]

theorem booleanLiteral?_eq_some_iff {b : Bool} :
    booleanLiteral? value = some b ↔ value = .bool b := by
  cases value <;> simp [booleanLiteral?]

theorem dateLiteral?_eq_some_iff {d : DateValue} :
    dateLiteral? value = some d ↔ ∃ s, value = .string s ∧ d = .text s := by
  cases value <;> simp [dateLiteral?, eq_comm]

/-- Members make a leaf of a kind if they have its keys, and only that one. -/
theorem ofMembers_eq_ok_iff {kind : LeafKind} {l : Leaf} :
    ofMembers kind members = .ok l ↔
      l.kind = kind ∧ members.lookup "field" = some (.string l.field) ∧
      members.lookup "operation" = some (.string l.operationName) ∧
      ∃ value, members.lookup "value" = some value ∧ l.LiteralFrom value := by
  cases kind with
  | string =>
    simp only [ofMembers, map_eq_ok_iff, comparison_eq_ok_iff Operation.named_string,
      stringLiteral?_eq_some_iff]
    cases l <;> simp [kind, Leaf.field, operationName, LiteralFrom]
  | number =>
    simp only [ofMembers, map_eq_ok_iff, comparison_eq_ok_iff Operation.named_number,
      numberLiteral?_eq_some_iff]
    cases l <;> simp [kind, Leaf.field, operationName, LiteralFrom]
  | boolean =>
    simp only [ofMembers, map_eq_ok_iff, comparison_eq_ok_iff Operation.named_boolean,
      booleanLiteral?_eq_some_iff]
    cases l <;> simp [kind, Leaf.field, operationName, LiteralFrom]
  | date =>
    simp only [ofMembers, map_eq_ok_iff, comparison_eq_ok_iff Operation.named_date,
      dateLiteral?_eq_some_iff]
    cases l <;> simp [kind, Leaf.field, operationName, LiteralFrom]

end Leaf

/-- A node has the keys of this combinator, over these items. -/
structure Combinator.StandsIn (c : Combinator) (items : List Json) (v : Json) : Prop where
  type : v.key? "type" = some (.string c.name)
  filters : v.key? "filters" = some (.array items)

namespace NodeShape

variable {members : List (String × Json)}

theorem kindUnder_eq_ok_iff {kind : NodeKind} :
    kindUnder members = .ok kind ↔ members.lookup "type" = some (.string kind.name) := by
  rw [kindUnder, bind_eq_ok_iff]
  constructor
  · rintro ⟨text, under, known⟩
    cases found : NodeKind.ofName? text with
    | none => rw [found] at known; cases known
    | some other =>
      rw [found] at known
      cases known
      rw [← NodeKind.ofName?_eq_some_iff.mp found]
      exact Leaf.stringUnder_eq_ok_iff.mp under
  · intro under
    refine ⟨kind.name, Leaf.stringUnder_eq_ok_iff.mpr under, ?_⟩
    rw [NodeKind.ofName?_eq_some_iff.mpr rfl]
    rfl

theorem childrenUnder_eq_ok_iff {items : List Json} :
    childrenUnder members = .ok items ↔ members.lookup "filters" = some (.array items) := by
  rw [childrenUnder]
  cases members.lookup "filters" with
  | none => simp
  | some v => cases v <;> simp

theorem ofMembers_eq_leaf_iff {l : Leaf} :
    ofMembers members = .ok (.leaf l) ↔ l.StandsIn (.object members) := by
  rw [ofMembers, bind_eq_ok_iff]
  constructor
  · rintro ⟨kind, under, made⟩
    cases kind with
    | combinator c =>
      obtain ⟨items, _, other⟩ := map_eq_ok_iff.mp made
      cases other
    | leaf k =>
      obtain ⟨m, made, same⟩ := map_eq_ok_iff.mp made
      cases same
      obtain ⟨rfl, field, operation, literal⟩ := Leaf.ofMembers_eq_ok_iff.mp made
      exact ⟨kindUnder_eq_ok_iff.mp under, field, operation, literal⟩
  · intro h
    refine ⟨.leaf l.kind, kindUnder_eq_ok_iff.mpr h.type, map_eq_ok_iff.mpr ⟨l, ?_, rfl⟩⟩
    exact Leaf.ofMembers_eq_ok_iff.mpr ⟨rfl, h.field, h.operation, h.literal⟩

theorem ofMembers_eq_combinator_iff {c : Combinator} :
    ofMembers members = .ok (.combinator c) ↔ ∃ items, c.StandsIn items (.object members) := by
  rw [ofMembers, bind_eq_ok_iff]
  constructor
  · rintro ⟨kind, under, made⟩
    cases kind with
    | leaf k =>
      obtain ⟨l, _, other⟩ := map_eq_ok_iff.mp made
      cases other
    | combinator d =>
      obtain ⟨items, filters, same⟩ := map_eq_ok_iff.mp made
      cases same
      exact ⟨items, kindUnder_eq_ok_iff.mp under, childrenUnder_eq_ok_iff.mp filters⟩
  · rintro ⟨items, h⟩
    refine ⟨.combinator c, kindUnder_eq_ok_iff.mpr h.type, map_eq_ok_iff.mpr ⟨items, ?_, rfl⟩⟩
    exact childrenUnder_eq_ok_iff.mpr h.filters

end NodeShape

namespace Filter

variable {v : Json} {l : Leaf} {c : Combinator} {items : List Json}

/-- Every item is decoded by itself, and the logs of the items follow each other. -/
theorem decodeAll_eq (values : List Json) :
    decodeAll values = ⟨values.map ofJson, values.flatMap fun v => (decode v).events⟩ := by
  induction values with
  | nil => rfl
  | cons v rest ih =>
    have others : (decodeAll (v :: rest)).events =
        (decode v).events ++ ((decodeAll rest).events ++ []) :=
      rfl
    have results : (decodeAll (v :: rest)).value = ofJson v :: (decodeAll rest).value := rfl
    rw [Logged.mk.injEq, results, others, ih, List.append_nil]
    exact ⟨rfl, rfl⟩

theorem decodeUnder_eq {members : List (String × Json)}
    (h : members.lookup "filters" = some (.array items)) :
    decodeUnder members = decodeAll items := by
  induction members with
  | nil => cases h
  | cons entry rest ih =>
    obtain ⟨key, v⟩ := entry
    rw [decodeUnder]
    by_cases here : key = "filters"
    · subst here
      rw [List.lookup_cons_self] at h
      cases h
      rw [if_pos rfl]
      rfl
    · rw [if_neg here]
      rw [List.lookup_cons, beq_eq_false_iff_ne.mpr (Ne.symm here)] at h
      exact ih h

/-- What is no object has no keys. -/
theorem exists_members {name : String} {w : Json} (h : v.key? name = some w) :
    ∃ members, v = .object members := by
  cases v with
  | object members => exact ⟨members, rfl⟩
  | null | bool | number | string | array => cases h

theorem decode_leaf (h : l.StandsIn v) : decode v = ⟨.leaf l, []⟩ := by
  obtain ⟨members, rfl⟩ := exists_members h.type
  rw [decode, NodeShape.ofMembers_eq_leaf_iff.mpr h]
  rfl

/-- A combinator logs what its items log, and nothing of its own. -/
theorem decode_combinator (h : c.StandsIn items v) :
    decode v = ⟨.combine c (items.map ofJson), items.flatMap fun w => (decode w).events⟩ := by
  obtain ⟨members, rfl⟩ := exists_members h.type
  have listed : members.lookup "filters" = some (.array items) := h.filters
  rw [decode, NodeShape.ofMembers_eq_combinator_iff.mpr ⟨items, h⟩]
  simp only [decodeUnder_eq listed, decodeAll_eq]
  exact congrArg (Logged.mk _) (List.append_nil _)

/-- A node has the keys of a leaf, or of a combinator, or it is kept as it came. Only then it is
logged, and then nothing below it is decoded. -/
theorem decode_cases (v : Json) :
    (∃ l, l.StandsIn v ∧ decode v = ⟨.leaf l, []⟩) ∨
    (∃ c items, c.StandsIn items v ∧
      decode v = ⟨.combine c (items.map ofJson), items.flatMap fun w => (decode w).events⟩) ∨
    ∃ rejection : Rejection,
      decode v = ⟨.unsupported rejection.reason v, [.nodeKept rejection.reason]⟩ := by
  cases v with
  | object members =>
    cases shape : NodeShape.ofMembers members with
    | error rejection =>
      refine Or.inr (Or.inr ⟨rejection, ?_⟩)
      rw [decode, shape]
      rfl
    | ok shape' =>
      cases shape' with
      | leaf l =>
        have stands := NodeShape.ofMembers_eq_leaf_iff.mp shape
        exact Or.inl ⟨l, stands, decode_leaf stands⟩
      | combinator c =>
        obtain ⟨items, stands⟩ := NodeShape.ofMembers_eq_combinator_iff.mp shape
        exact Or.inr (Or.inl ⟨c, items, stands, decode_combinator stands⟩)
  | null => exact Or.inr (Or.inr ⟨.notObject .null, rfl⟩)
  | bool b => exact Or.inr (Or.inr ⟨.notObject .boolean, rfl⟩)
  | number n => exact Or.inr (Or.inr ⟨.notObject .number, rfl⟩)
  | string s => exact Or.inr (Or.inr ⟨.notObject .string, rfl⟩)
  | array items => exact Or.inr (Or.inr ⟨.notObject .array, rfl⟩)

theorem ofJson_leaf (h : l.StandsIn v) : ofJson v = .leaf l := by
  rw [ofJson, decode_leaf h]

theorem ofJson_combinator (h : c.StandsIn items v) : ofJson v = .combine c (items.map ofJson) := by
  rw [ofJson, decode_combinator h]

theorem ofJson_cases (v : Json) :
    (∃ l, l.StandsIn v ∧ ofJson v = .leaf l) ∨
    (∃ c items, c.StandsIn items v ∧ ofJson v = .combine c (items.map ofJson)) ∨
    ∃ rejection : Rejection, ofJson v = .unsupported rejection.reason v := by
  rcases decode_cases v with ⟨l, stands, made⟩ | ⟨c, items, stands, made⟩ | ⟨rejection, made⟩
  · exact Or.inl ⟨l, stands, congrArg Logged.value made⟩
  · exact Or.inr (Or.inl ⟨c, items, stands, congrArg Logged.value made⟩)
  · exact Or.inr (Or.inr ⟨rejection, congrArg Logged.value made⟩)

theorem ofJson_eq_leaf_iff : ofJson v = .leaf l ↔ l.StandsIn v := by
  refine ⟨fun h => ?_, ofJson_leaf⟩
  rcases ofJson_cases v with ⟨m, stands, made⟩ | ⟨c, items, _, made⟩ | ⟨rejection, made⟩
  · rw [made] at h
    cases h
    exact stands
  · rw [made] at h
    cases h
  · rw [made] at h
    cases h

theorem ofJson_eq_combine_iff {children : List Filter} :
    ofJson v = .combine c children ↔ ∃ items, c.StandsIn items v ∧ items.map ofJson = children := by
  constructor
  · intro h
    rcases ofJson_cases v with ⟨l, _, made⟩ | ⟨d, items, stands, made⟩ | ⟨rejection, made⟩
    · rw [made] at h
      cases h
    · rw [made] at h
      cases h
      exact ⟨items, stands, rfl⟩
    · rw [made] at h
      cases h
  · rintro ⟨items, stands, rfl⟩
    exact ofJson_combinator stands

/-- A node that is not decoded holds the very value it came as. -/
theorem raw_eq_of_ofJson {reason : String} {raw : Json} (h : ofJson v = .unsupported reason raw) :
    raw = v := by
  rcases ofJson_cases v with ⟨l, _, made⟩ | ⟨c, items, _, made⟩ | ⟨rejection, made⟩
  · rw [made] at h
    cases h
  · rw [made] at h
    cases h
  · rw [made] at h
    cases h
    rfl

end Filter

end Sieve
