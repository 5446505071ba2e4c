import Sieve.Proofs.Filter.Decode

/-!
Nodes that are kept for a name that is not known. The type of a node is looked at first; then the
field, the operation and the value of a leaf, or the children of a combinator. A node is kept for
the first of these that is not what it should be.
-/

namespace Sieve

/-- The key for which a node is kept. A value that is no object has none. -/
def Rejection.key? : Rejection → Option String
  | .notObject _ => none
  | .missing key => some key
  | .wrongKind key _ _ => some key
  | .unknownType _ => some "type"
  | .unknownOperation _ _ _ => some "operation"

/-- The names of the operations of a kind, in the order in which they are offered. -/
def LeafKind.operationNames : LeafKind → List String
  | .string => (Operation.all : List StringOperation).map Operation.name
  | .number => (Operation.all : List NumberOperation).map Operation.name
  | .boolean => (Operation.all : List BooleanOperation).map Operation.name
  | .date => (Operation.all : List DateOperation).map Operation.name

theorem Operation.ofName?_eq_none_iff {α : Type} [Operation α] {text : String} :
    (ofName? text : Option α) = none ↔ text ∉ (all : List α).map name := by
  simp [ofName?]

theorem NodeKind.ofName?_eq_none_iff {text : String} :
    ofName? text = none ↔ text ∉ all.map name := by
  simp [ofName?]

theorem NodeKind.eq_of_name_eq {kind other : NodeKind} (h : kind.name = other.name) :
    kind = other := by
  have known : ofName? kind.name = some kind := ofName?_eq_some_iff.mpr rfl
  rw [ofName?_eq_some_iff.mpr h] at known
  exact (Option.some.inj known).symm

theorem NodeKind.name_mem (kind : NodeKind) : kind.name ∈ all.map name := by
  have known : ofName? kind.name = some kind := ofName?_eq_some_iff.mpr rfl
  by_contra unknown
  rw [ofName?_eq_none_iff.mpr unknown] at known
  cases known

namespace Leaf

variable {members : List (String × Json)} {r : Rejection}

theorem stringUnder_error {key : String} (h : stringUnder key members = .error r) :
    r = .missing key ∨ ∃ found, r = .wrongKind key "a string" found := by
  rw [stringUnder] at h
  split at h
  · cases h
  · cases h
    exact Or.inr ⟨_, rfl⟩
  · cases h
    exact Or.inl rfl

theorem key?_of_stringUnder {key : String} (h : stringUnder key members = .error r) :
    r.key? = some key := by
  rcases stringUnder_error h with rfl | ⟨found, rfl⟩ <;> rfl

theorem key?_of_literalUnder {Literal : Type} {literal? : Json → Option Literal} {wanted : String}
    (h : literalUnder literal? wanted members = .error r) : r.key? = some "value" := by
  rw [literalUnder] at h
  split at h
  · cases h
    rfl
  · split at h
    · cases h
    · cases h
      rfl

/-- What can be wrong with a leaf of a kind, each thing only where all that comes before it is as it
should be. -/
inductive Wrong (kind : LeafKind) (members : List (String × Json)) : Rejection → Prop
  | field {r : Rejection} : stringUnder "field" members = .error r → Wrong kind members r
  | operation {r : Rejection} {field : String} : stringUnder "field" members = .ok field →
      stringUnder "operation" members = .error r → Wrong kind members r
  | unknown {field q : String} : stringUnder "field" members = .ok field →
      stringUnder "operation" members = .ok q → q ∉ kind.operationNames →
      Wrong kind members (.unknownOperation q kind kind.operationNames)
  | literal {r : Rejection} {q : String} : stringUnder "operation" members = .ok q →
      q ∈ kind.operationNames → r.key? = some "value" → Wrong kind members r

theorem Wrong.key?_mem {kind : LeafKind} (h : Wrong kind members r) :
    ∃ key ∈ ["field", "operation", "value"], r.key? = some key := by
  cases h with
  | field no_field => exact ⟨_, List.mem_cons_self, key?_of_stringUnder no_field⟩
  | operation _ no_operation => exact ⟨"operation", by simp, key?_of_stringUnder no_operation⟩
  | unknown => exact ⟨"operation", by simp, rfl⟩
  | literal _ _ key => exact ⟨"value", by simp, key⟩

theorem wrong_of_operationUnder {Op : Type} [Operation Op] {kind : LeafKind} {field : String}
    (names : kind.operationNames = (Operation.all : List Op).map Operation.name)
    (field_read : stringUnder "field" members = .ok field)
    (h : (operationUnder kind members : Except Rejection Op) = .error r) :
    Wrong kind members r := by
  rw [operationUnder, bind_eq_error_iff] at h
  rcases h with missing | ⟨q, q_read, unknown⟩
  · exact .operation field_read missing
  · cases found : (Operation.ofName? q : Option Op) with
    | some operation =>
      rw [found] at unknown
      cases unknown
    | none =>
      rw [found] at unknown
      cases unknown
      rw [← names]
      exact .unknown field_read q_read (names ▸ Operation.ofName?_eq_none_iff.mp found)

theorem wrong_of_comparison {Op Literal : Type} [Operation Op] {kind : LeafKind}
    {literal? : Json → Option Literal} {wanted : String} (named : Operation.Named Op)
    (names : kind.operationNames = (Operation.all : List Op).map Operation.name)
    (h : (comparison kind literal? wanted members : Except Rejection (Comparison Op Literal)) =
      .error r) : Wrong kind members r := by
  rw [comparison, bind_eq_error_iff] at h
  rcases h with no_field | ⟨field, field_read, h⟩
  · exact .field no_field
  rw [bind_eq_error_iff] at h
  rcases h with no_operation | ⟨operation, operation_read, h⟩
  · exact wrong_of_operationUnder names field_read no_operation
  rw [bind_eq_error_iff] at h
  rcases h with no_literal | ⟨literal, _, made⟩
  · have under := (operationUnder_eq_ok_iff named).mp operation_read
    have known : Operation.name operation ∈ kind.operationNames := by
      by_contra unknown
      have found := named operation
      rw [Operation.ofName?_eq_none_iff.mpr (names ▸ unknown)] at found
      cases found
    exact .literal (stringUnder_eq_ok_iff.mpr under) known (key?_of_literalUnder no_literal)
  · cases made

theorem wrong_of_ofMembers {kind : LeafKind} (h : ofMembers kind members = .error r) :
    Wrong kind members r := by
  cases kind with
  | string => exact wrong_of_comparison Operation.named_string rfl (map_eq_error_iff.mp h)
  | number => exact wrong_of_comparison Operation.named_number rfl (map_eq_error_iff.mp h)
  | boolean => exact wrong_of_comparison Operation.named_boolean rfl (map_eq_error_iff.mp h)
  | date => exact wrong_of_comparison Operation.named_date rfl (map_eq_error_iff.mp h)

/-- Where the field is a string, an unknown operation is what a leaf is kept for. -/
theorem ofMembers_unknown {kind : LeafKind} {field q : String}
    (field_read : stringUnder "field" members = .ok field)
    (q_read : stringUnder "operation" members = .ok q) (unknown : q ∉ kind.operationNames) :
    ofMembers kind members = .error (.unknownOperation q kind kind.operationNames) := by
  cases kind with
  | string | number | boolean | date =>
    rw [ofMembers, map_eq_error_iff, comparison, field_read, operationUnder, q_read]
    simp only [bind, Except.bind, Operation.ofName?_eq_none_iff.mpr unknown]
    rfl

end Leaf

namespace NodeShape

variable {members : List (String × Json)} {r : Rejection}

/-- What can be wrong with a node, each thing only where all that comes before it is as it should
be. -/
inductive Wrong (members : List (String × Json)) : Rejection → Prop
  | type {r : Rejection} : Leaf.stringUnder "type" members = .error r → Wrong members r
  | unknown {q : String} : Leaf.stringUnder "type" members = .ok q →
      q ∉ NodeKind.all.map NodeKind.name → Wrong members (.unknownType q)
  | leaf {r : Rejection} {kind : LeafKind} : Leaf.stringUnder "type" members = .ok kind.name →
      Leaf.Wrong kind members r → Wrong members r
  | children {r : Rejection} {c : Combinator} : Leaf.stringUnder "type" members = .ok c.name →
      r.key? = some "filters" → Wrong members r

theorem key?_of_childrenUnder (h : childrenUnder members = .error r) : r.key? = some "filters" := by
  rw [childrenUnder] at h
  split at h
  · cases h
  · cases h
    rfl
  · cases h
    rfl

theorem wrong_of_ofMembers (h : ofMembers members = .error r) : Wrong members r := by
  rw [ofMembers, bind_eq_error_iff, kindUnder, bind_eq_error_iff] at h
  rcases h with (no_type | ⟨q, q_read, unknown⟩) | ⟨kind, known, h⟩
  · exact .type no_type
  · cases found : NodeKind.ofName? q with
    | some kind =>
      rw [found] at unknown
      cases unknown
    | none =>
      rw [found] at unknown
      cases unknown
      exact .unknown q_read (NodeKind.ofName?_eq_none_iff.mp found)
  · have under := Leaf.stringUnder_eq_ok_iff.mpr (kindUnder_eq_ok_iff.mp known)
    cases kind with
    | leaf k => exact .leaf under (Leaf.wrong_of_ofMembers (map_eq_error_iff.mp h))
    | combinator c => exact .children under (key?_of_childrenUnder (map_eq_error_iff.mp h))

theorem ofMembers_unknown {q : String} (q_read : Leaf.stringUnder "type" members = .ok q)
    (unknown : q ∉ NodeKind.all.map NodeKind.name) :
    ofMembers members = .error (.unknownType q) := by
  rw [ofMembers, kindUnder, q_read]
  simp only [bind, Except.bind, NodeKind.ofName?_eq_none_iff.mpr unknown]

theorem ofMembers_leaf {kind : LeafKind}
    (kind_read : Leaf.stringUnder "type" members = .ok kind.name) :
    ofMembers members = (Leaf.ofMembers kind members).map .leaf := by
  have known : kindUnder members = .ok (.leaf kind) :=
    kindUnder_eq_ok_iff.mpr (Leaf.stringUnder_eq_ok_iff.mp kind_read)
  rw [ofMembers, known]
  rfl

end NodeShape

/-- The keys of a node under which one of a list of names has to stand. -/
inductive NameKey where
  | type
  | operation (kind : LeafKind)

namespace NameKey

variable {k : NameKey} {q s : String} {members : List (String × Json)}

def key : NameKey → String
  | .type => "type"
  | .operation _ => "operation"

def legal : NameKey → List String
  | .type => NodeKind.all.map NodeKind.name
  | .operation kind => kind.operationNames

example : legal .type = ["string", "number", "boolean", "date", "or", "and"] := rfl

example : legal (.operation .string) = ["eq", "startsWith", "endsWith", "contains"] := rfl

/-- The key is looked at: what comes before it is as it should be. -/
def Reached (members : List (String × Json)) : NameKey → Prop
  | .type => True
  | .operation kind =>
    members.lookup "type" = some (.string kind.name) ∧
      ∃ field, members.lookup "field" = some (.string field)

/-- The key is looked at, and a string that is not one of the names stands under it. -/
structure Unknown (k : NameKey) (q : String) (members : List (String × Json)) : Prop where
  reached : k.Reached members
  under : members.lookup k.key = some (.string q)
  unknown : q ∉ k.legal

/-- What a node is kept for whose name under the key is not known. -/
def rejection (q : String) : NameKey → Rejection
  | .type => .unknownType q
  | .operation kind => .unknownOperation q kind kind.operationNames

theorem stringUnder_ne_rejection (key : String) (members : List (String × Json)) :
    Leaf.stringUnder key members ≠ .error (k.rejection q) := by
  intro h
  rcases Leaf.stringUnder_error h with other | ⟨_, other⟩ <;> cases k <;> cases other

/-- **A node is kept for an unknown name just if there is one where it is looked for.** -/
theorem ofMembers_eq_rejection_iff :
    NodeShape.ofMembers members = .error (k.rejection q) ↔ k.Unknown q members := by
  constructor
  · intro h
    have wrong := NodeShape.wrong_of_ofMembers h
    cases k with
    | type =>
      cases wrong with
      | type no_type => exact absurd no_type (stringUnder_ne_rejection _ _)
      | unknown q_read unknown => exact ⟨trivial, Leaf.stringUnder_eq_ok_iff.mp q_read, unknown⟩
      | leaf _ wrong =>
        obtain ⟨key, mem, same⟩ := wrong.key?_mem
        cases same
        exact absurd mem (by decide)
      | children _ key => simp [rejection, Rejection.key?] at key
    | operation kind =>
      cases wrong with
      | type no_type => exact absurd no_type (stringUnder_ne_rejection _ _)
      | leaf kind_read wrong =>
        cases wrong with
        | field no_field => exact absurd no_field (stringUnder_ne_rejection _ _)
        | operation _ no_operation => exact absurd no_operation (stringUnder_ne_rejection _ _)
        | unknown field_read q_read unknown =>
          have known := Leaf.stringUnder_eq_ok_iff.mp kind_read
          have field := Leaf.stringUnder_eq_ok_iff.mp field_read
          exact ⟨⟨known, _, field⟩, Leaf.stringUnder_eq_ok_iff.mp q_read, unknown⟩
        | literal _ _ key => simp [rejection, Rejection.key?] at key
      | children _ key => simp [rejection, Rejection.key?] at key
  · rintro ⟨reached, under, unknown⟩
    have q_read := Leaf.stringUnder_eq_ok_iff.mpr under
    cases k with
    | type => exact NodeShape.ofMembers_unknown q_read unknown
    | operation kind =>
      obtain ⟨kind_read, field, field_read⟩ := reached
      rw [NodeShape.ofMembers_leaf (Leaf.stringUnder_eq_ok_iff.mpr kind_read), map_eq_error_iff]
      exact Leaf.ofMembers_unknown (Leaf.stringUnder_eq_ok_iff.mpr field_read) q_read unknown

/-- Where one of the names stands under the key, a node may still be kept, but not for that key. -/
theorem other_key_of_legal {r : Rejection} (reached : k.Reached members)
    (under : members.lookup k.key = some (.string s)) (known : s ∈ k.legal)
    (h : NodeShape.ofMembers members = .error r) : ∃ key, r.key? = some key ∧ key ≠ k.key := by
  have s_read : Leaf.stringUnder k.key members = .ok s := Leaf.stringUnder_eq_ok_iff.mpr under
  have wrong := NodeShape.wrong_of_ofMembers h
  cases k with
  | type =>
    cases wrong with
    | type no_type => cases s_read.symm.trans no_type
    | unknown q_read unknown =>
      cases s_read.symm.trans q_read
      exact absurd known unknown
    | leaf _ wrong =>
      obtain ⟨key, mem, same⟩ := wrong.key?_mem
      refine ⟨key, same, ?_⟩
      rintro rfl
      exact absurd mem (by decide)
    | children _ key => exact ⟨"filters", key, by decide⟩
  | operation kind =>
    obtain ⟨kind_under, field, field_under⟩ := reached
    have kind_read := Leaf.stringUnder_eq_ok_iff.mpr kind_under
    have field_read := Leaf.stringUnder_eq_ok_iff.mpr field_under
    cases wrong with
    | type no_type => cases kind_read.symm.trans no_type
    | unknown q_read unknown =>
      cases kind_read.symm.trans q_read
      exact absurd (NodeKind.name_mem (.leaf kind)) unknown
    | @leaf _ other other_read wrong =>
      have same : NodeKind.leaf kind = .leaf other :=
        NodeKind.eq_of_name_eq (Except.ok.inj (kind_read.symm.trans other_read))
      cases same
      cases wrong with
      | field no_field => cases field_read.symm.trans no_field
      | operation _ no_operation => cases s_read.symm.trans no_operation
      | unknown _ q_read unknown =>
        cases s_read.symm.trans q_read
        exact absurd known unknown
      | literal _ _ key =>
        refine ⟨"value", key, ?_⟩
        simp [NameKey.key]
    | @children _ c other_read _ =>
      have same : NodeKind.leaf kind = .combinator c :=
        NodeKind.eq_of_name_eq (Except.ok.inj (kind_read.symm.trans other_read))
      cases same

end NameKey

/-- An object is kept just if its members are not those of a node, and with the reason for that. -/
theorem Filter.ofJson_object_eq_unsupported_iff {members : List (String × Json)} {reason : String}
    {raw : Json} :
    ofJson (.object members) = .unsupported reason raw ↔
      raw = .object members ∧
        ∃ r : Rejection, NodeShape.ofMembers members = .error r ∧ r.reason = reason := by
  rw [ofJson, decode]
  cases NodeShape.ofMembers members with
  | error r =>
    constructor
    · intro kept
      cases kept
      exact ⟨rfl, r, rfl, rfl⟩
    · rintro ⟨rfl, other, same, rfl⟩
      cases same
      rfl
  | ok shape =>
    constructor
    · intro kept
      cases shape <;> cases kept
    · rintro ⟨_, _, same, _⟩
      cases same

end Sieve
