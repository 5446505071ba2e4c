import Sieve.Filter.Encode
import Sieve.Filter.Text
import Sieve.Proofs.Filter.Decode
import Sieve.Proofs.Filter.Tree
import Sieve.Proofs.Json.ReadWritten
import Sieve.Proofs.Verdict

/-!
Filters through their own text. A filter is written as a JSON value whose members stand in another
order than the reader keeps them in, so the two shapes of a node are told apart here: as it is
written, and as it holds what was read in the place of its literal or of its children.
-/

namespace Sieve

open Json

/-- What the literal of a leaf of this kind has to be, in words. -/
def LeafKind.wanted : LeafKind → String
  | .string => "a string"
  | .number => "a number"
  | .boolean => "a boolean"
  | .date => "a date string"

namespace Leaf

/-- The object of a leaf with its members in the order in which they are written. -/
def written (l : Leaf) : Json :=
  .object [("type", .string l.kind.name), ("field", .string l.field),
    ("operation", .string l.operationName), ("value", l.literalJson)]

/-- The members of a leaf in order of their names, with some value for its literal. -/
def members (l : Leaf) (value : Json) : List (String × Json) :=
  [("field", .string l.field), ("operation", .string l.operationName),
    ("type", .string l.kind.name), ("value", value)]

/-- The leaf with the literal that a value gives. -/
def withLiteral? (l : Leaf) (value : Json) : Option Leaf :=
  match l with
  | .string c => (stringLiteral? value).map fun s => .string ⟨c.field, c.operation, s⟩
  | .number c => (numberLiteral? value).map fun x => .number ⟨c.field, c.operation, x⟩
  | .boolean c => (booleanLiteral? value).map fun b => .boolean ⟨c.field, c.operation, b⟩
  | .date c => (dateLiteral? value).map fun d => .date ⟨c.field, c.operation, d⟩

/-- A finite literal is read off its own text by the number reader. -/
theorem reread_ofBinary64 {x : Binary64} (finite : x.isFinite = true) (budget : Nat) :
    (reread budget (ofBinary64 x)).toOption.bind numberLiteral? = x.reread? := by
  rw [ofBinary64, dif_pos finite, reread, Number.reread, Number.write, Binary64.reread?]
  cases Reader.number (writeBinary64 x) <;> rfl

theorem write_written (l : Leaf) : l.written.write = l.write := rfl

theorem reread_written (l : Leaf) (budget : Nat) :
    reread (budget + 1) l.written =
      (reread budget l.literalJson).map fun value => .object (l.members value) := by
  have members_of_value (value : Json) :
      Assoc.ofList [("type", .string l.kind.name), ("field", .string l.field),
        ("operation", .string l.operationName), ("value", value)] = l.members value := by
    simp only [Assoc.ofList, List.foldl_cons, List.foldl_nil, Assoc.insert_nil]
    rw [Assoc.insert_before (by decide), Assoc.insert_after (by decide),
      Assoc.insert_after (by decide), Assoc.insert_before (by decide),
      Assoc.insert_after (by decide), Assoc.insert_after (by decide), Assoc.insert_nil]
    rfl
  rw [written, reread]
  simp only [rereadMembers, reread]
  cases reread budget l.literalJson with
  | error cause => rfl
  | ok value =>
    exact congrArg (fun entries => Except.ok (Json.object entries)) (members_of_value value)

/-- A leaf with another literal has the keys of the first one, the value apart. -/
theorem standsIn_members {l m : Leaf} {value : Json} (h : l.withLiteral? value = some m) :
    m.StandsIn (.object (l.members value)) := by
  cases l with
  | string c =>
    obtain ⟨s, given, rfl⟩ := Option.map_eq_some_iff.mp h
    exact ⟨rfl, rfl, rfl, value, rfl, stringLiteral?_eq_some_iff.mp given⟩
  | number c =>
    obtain ⟨x, given, rfl⟩ := Option.map_eq_some_iff.mp h
    exact ⟨rfl, rfl, rfl, value, rfl, numberLiteral?_eq_some_iff.mp given⟩
  | boolean c =>
    obtain ⟨b, given, rfl⟩ := Option.map_eq_some_iff.mp h
    exact ⟨rfl, rfl, rfl, value, rfl, booleanLiteral?_eq_some_iff.mp given⟩
  | date c =>
    obtain ⟨d, given, rfl⟩ := Option.map_eq_some_iff.mp h
    exact ⟨rfl, rfl, rfl, value, rfl, dateLiteral?_eq_some_iff.mp given⟩

/-- A leaf that is given a value of another kind for its literal is refused for this value. -/
theorem ofMembers_wrongLiteral {l : Leaf} {value : Json} (h : l.withLiteral? value = none) :
    ofMembers l.kind (l.members value) =
      .error (.wrongKind "value" l.kind.wanted value.kind) := by
  cases l with
  | string c =>
    have other := Option.map_eq_none_iff.mp h
    rw [kind, ofMembers, comparison_wrongLiteral Operation.named_string rfl rfl rfl other]
    rfl
  | number c =>
    have other := Option.map_eq_none_iff.mp h
    rw [kind, ofMembers, comparison_wrongLiteral Operation.named_number rfl rfl rfl other]
    rfl
  | boolean c =>
    have other := Option.map_eq_none_iff.mp h
    rw [kind, ofMembers, comparison_wrongLiteral Operation.named_boolean rfl rfl rfl other]
    rfl
  | date c =>
    have other := Option.map_eq_none_iff.mp h
    rw [kind, ofMembers, comparison_wrongLiteral Operation.named_date rfl rfl rfl other]
    rfl

end Leaf

namespace Combinator

/-- The members of a combinator in order of their names. -/
def members (c : Combinator) (children : List Json) : List (String × Json) :=
  [("filters", .array children), ("type", .string c.name)]

theorem standsIn_members (c : Combinator) (children : List Json) :
    c.StandsIn children (.object (c.members children)) := ⟨rfl, rfl⟩

end Combinator

namespace Filter

mutual

/-- A filter with the members of every node in the order in which they are written. -/
def written : Filter → Json
  | .leaf l => l.written
  | .combine c children =>
    .object [("type", .string c.name), ("filters", .array (writtenAll children))]
  | .unsupported _ raw => raw
termination_by structural f => f

def writtenAll : List Filter → List Json
  | [] => []
  | f :: rest => written f :: writtenAll rest
termination_by structural fs => fs

end

theorem writtenAll_eq_map (children : List Filter) :
    writtenAll children = children.map written := by
  induction children with
  | nil => rfl
  | cons f rest ih => rw [writtenAll, List.map_cons, ih]

theorem writeAll_eq_map (children : List Filter) : writeAll children = children.map write := by
  induction children with
  | nil => rfl
  | cons f rest ih => rw [writeAll, List.map_cons, ih]

theorem write_written (f : Filter) : f.written.write = f.write := by
  induction f with
  | leaf l => exact l.write_written
  | unsupported reason raw => rfl
  | combine c children ih =>
    have each : writeItems (writtenAll children) = writeAll children := by
      rw [writeItems_eq_map, writtenAll_eq_map, writeAll_eq_map, List.map_map]
      exact List.map_congr_left ih
    rw [written, write, ← each]
    rfl

theorem render_written (f : Filter) : f.written.render = f.render :=
  congrArg String.ofList f.write_written

/-- A combinator opens two brackets before any of its children is read. -/
theorem reread_written_combine (c : Combinator) (children : List Filter) (budget : Nat) :
    reread (budget + 2) (combine c children).written =
      (children.mapM fun f => reread budget f.written).map fun values =>
        .object (c.members values) := by
  have members_of_items (values : List Json) :
      Assoc.ofList [("type", .string c.name), ("filters", .array values)] = c.members values := by
    simp only [Assoc.ofList, List.foldl_cons, List.foldl_nil, Assoc.insert_nil]
    rw [Assoc.insert_before (by decide)]
    rfl
  have items : rereadItems budget (writtenAll children) =
      children.mapM fun f => reread budget f.written := by
    rw [rereadItems_eq_mapM, writtenAll_eq_map, List.mapM_map]
    rfl
  rw [written, reread]
  simp only [rereadMembers, reread, items]
  cases children.mapM fun f => reread budget f.written with
  | error cause => rfl
  | ok values =>
    exact congrArg (fun entries => Except.ok (Json.object entries)) (members_of_items values)

theorem reread_written_combine_one (c : Combinator) (children : List Filter) :
    reread 1 (combine c children).written = .error .tooDeep := rfl

theorem ofJson_combine (c : Combinator) (children : List Json) :
    ofJson (.object (c.members children)) = .combine c (children.map ofJson) :=
  ofJson_combinator (c.standsIn_members children)

theorem ofJson_wrongLiteral {l : Leaf} {value : Json} (h : l.withLiteral? value = none) :
    ofJson (.object (l.members value)) =
      .unsupported (Rejection.wrongKind "value" l.kind.wanted value.kind).reason
        (.object (l.members value)) := by
  have kind : NodeShape.kindUnder (l.members value) = .ok (.leaf l.kind) :=
    NodeShape.kindUnder_eq_ok_iff.mpr rfl
  have shape : NodeShape.ofMembers (l.members value) =
      .error (.wrongKind "value" l.kind.wanted value.kind) := by
    rw [NodeShape.ofMembers, kind]
    change (Leaf.ofMembers l.kind (l.members value)).map NodeShape.leaf = _
    rw [Leaf.ofMembers_wrongLiteral h]
    rfl
  rw [ofJson, decode, shape]
  rfl

/-- The node of a leaf is a leaf again, or it is kept undecoded. -/
theorem ofJson_members (l : Leaf) (value : Json) :
    match l.withLiteral? value with
    | some m => ofJson (.object (l.members value)) = .leaf m
    | none => ∃ reason, ofJson (.object (l.members value)) =
        .unsupported reason (.object (l.members value)) := by
  cases literal : l.withLiteral? value with
  | some m => exact ofJson_leaf (Leaf.standsIn_members literal)
  | none => exact ⟨_, ofJson_wrongLiteral literal⟩

theorem parse_eq (text : String) : parse text = (parseLenient text).bind validated := rfl

theorem validated_eq_ok_iff {f g : Filter} :
    f.validated = .ok g ↔ f.firstUnsupported? = none ∧ f = g := by
  rw [validated, validate]
  cases f.firstUnsupported? with
  | none =>
    constructor
    · intro h
      cases h
      exact ⟨rfl, rfl⟩
    · rintro ⟨_, rfl⟩
      rfl
  | some found =>
    constructor
    · intro h
      cases h
    · rintro ⟨h, _⟩
      cases h

section Text

variable {f : Filter} {v : Json}

/-- Lenient parsing of what a filter was written as decodes what its value reads back as. -/
theorem parseLenient_render (read : reread bracketBudget f.written = .ok v) :
    parseLenient f.render = .ok (ofJson v) := by
  have text := ofText_render f.written
  rw [f.render_written, read] at text
  change ofText f.render = .ok v at text
  rw [parseLenient, parseLenientLogged, text]
  rfl

/-- Strict parsing takes the same filter, if all of it was decoded. -/
theorem parse_render_of_decoded (read : reread bracketBudget f.written = .ok v)
    (decoded : (ofJson v).firstUnsupported? = none) : parse f.render = .ok (ofJson v) := by
  rw [parse_eq, parseLenient_render read]
  exact validated_eq_ok_iff.mpr ⟨decoded, rfl⟩

/-- What cannot be read back cannot be parsed either way. -/
theorem parse_render_error {cause : Cause}
    (failed : reread bracketBudget f.written = .error cause) :
    ∃ place, parse f.render = .error (.invalidJson (Fault.message ⟨cause, some place⟩)) ∧
      parseLenient f.render = .error (.invalidJson (Fault.message ⟨cause, some place⟩)) := by
  have text := ofText_render f.written
  rw [f.render_written, failed] at text
  obtain ⟨place, text⟩ := text
  have lenient : parseLenient f.render =
      .error (.invalidJson (Fault.message ⟨cause, some place⟩)) := by
    rw [parseLenient, parseLenientLogged, text]
    rfl
  refine ⟨place, ?_, lenient⟩
  rw [parse_eq, lenient]
  rfl

/-- A filter parsed from a text that was written is what the written value reads back as. -/
theorem exists_reread_of_parse_render {g : Filter} (h : parse f.render = .ok g) :
    ∃ v, reread bracketBudget f.written = .ok v ∧ ofJson v = g ∧ g.firstUnsupported? = none := by
  cases read : reread bracketBudget f.written with
  | error cause =>
    obtain ⟨place, strict, _⟩ := parse_render_error read
    rw [strict] at h
    cases h
  | ok v =>
    rw [parse_eq, parseLenient_render read] at h
    obtain ⟨decoded, rfl⟩ := validated_eq_ok_iff.mp h
    exact ⟨v, rfl, rfl, decoded⟩

end Text

end Filter

end Sieve
