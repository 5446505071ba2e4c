import Sieve.Filter.Text
import Sieve.Proofs.Decimal.Digits
import Sieve.Proofs.Filter.Decode
import Sieve.Proofs.Filter.Tree

/-!
Where nodes stand. A path leads to a node of a filter, and in the JSON that a filter is decoded from
the same path leads to what the node was decoded from. The node that a check of the whole reports is
the first of all unsupported ones, and the written path leads to it alone.
-/

namespace Sieve

namespace Path

/-- The text of a path, step by step. -/
theorem render_eq (path : Path) : path.render =
    "$" ++ String.join (path.map fun index => ".filters[" ++ toString index ++ "]") := by
  have steps : String.ofList (path.flatMap fun index =>
      ".filters[".toList ++ Decimal.digits index ++ [']']) =
      String.join (path.map fun index => ".filters[" ++ toString index ++ "]") := by
    induction path with
    | nil => rfl
    | cons index path ih =>
      rw [List.flatMap_cons, List.map_cons, String.join_cons, ← ih, String.ofList_append,
        String.ofList_append, String.ofList_append, Nat.toString_eq_ofList_toDigits]
      rfl
  rw [render, write, ← steps, String.ofList_cons]
  rfl

/-- A path is told by its text: the digits of an index end at the bracket that closes it. -/
theorem write_injective {path other : Path} (h : path.write = other.write) : path = other := by
  have below := (List.cons.inj h).2
  clear h
  induction path generalizing other with
  | nil =>
    cases other with
    | nil => rfl
    | cons index rest => simp at below
  | cons index path ih =>
    cases other with
    | nil => simp at below
    | cons index' other =>
      simp only [List.flatMap_cons, List.append_assoc, List.append_cancel_left_eq,
        List.cons_append, List.nil_append] at below
      obtain ⟨rfl, rest⟩ := Decimal.digits_append_cons_inj (by decide) below
      rw [ih rest]

theorem render_injective {path other : Path} (h : path.render = other.render) : path = other :=
  write_injective (String.ofList_injective h)

end Path

namespace Json

/-- The items under `filters`, if a list stands there. -/
def filters (v : Json) : List Json :=
  match v.key? "filters" with
  | some (.array items) => items
  | _ => []

/-- The value that a path leads to. -/
def follow? : Json → Path → Option Json
  | v, [] => some v
  | v, index :: path => v.filters[index]?.bind (follow? · path)

end Json

namespace Filter

def isUnsupported : Filter → Bool
  | .unsupported _ _ => true
  | _ => false

def children : Filter → List Filter
  | .combine _ children => children
  | _ => []

/-- The node that a path leads to. -/
def node? : Filter → Path → Option Filter
  | f, [] => some f
  | f, index :: path => f.children[index]?.bind (node? · path)

/-- Every node was decoded. -/
def Whole (f : Filter) : Prop := ∀ path g, f.node? path = some g → g.isUnsupported = false

mutual

/-- Every node with the path to it, a node before its children and these in their order. -/
def places : Filter → List (Path × Filter)
  | .combine c children => ([], .combine c children) :: placesFrom 0 children
  | .leaf l => [([], .leaf l)]
  | .unsupported reason raw => [([], .unsupported reason raw)]
termination_by structural f => f

/-- The same among children, the first of which has this index. -/
def placesFrom (index : Nat) : List Filter → List (Path × Filter)
  | [] => []
  | f :: rest => (places f).map (fun place => (index :: place.1, place.2)) ++
      placesFrom (index + 1) rest
termination_by structural fs => fs

end

variable {f g : Filter} {path : Path}

theorem node?_cons_eq_some_iff {index : Nat} :
    f.node? (index :: path) = some g ↔
      ∃ child, f.children[index]? = some child ∧ child.node? path = some g :=
  Option.bind_eq_some_iff

theorem mem_placesFrom_iff {start : Nat} {children : List Filter} :
    (path, g) ∈ placesFrom start children ↔
      ∃ index child rest, children[index]? = some child ∧ path = (start + index) :: rest ∧
        (rest, g) ∈ child.places := by
  induction children generalizing start with
  | nil => simp [placesFrom]
  | cons f others ih =>
    rw [placesFrom, List.mem_append, ih, List.mem_map]
    constructor
    · rintro (⟨⟨rest, h⟩, here, same⟩ | ⟨index, child, rest, found, rfl, here⟩)
      · cases same
        exact ⟨0, f, rest, rfl, rfl, here⟩
      · exact ⟨index + 1, child, rest, found, by rw [Nat.add_right_comm, Nat.add_assoc], here⟩
    · rintro ⟨index, child, rest, found, rfl, here⟩
      cases index with
      | zero =>
        cases found
        exact Or.inl ⟨(rest, g), here, rfl⟩
      | succ index =>
        exact Or.inr ⟨index, child, rest, found, by rw [Nat.add_right_comm, Nat.add_assoc], here⟩

theorem whole_leaf (l : Leaf) : (leaf l).Whole := by
  intro path g here
  cases path with
  | nil => cases here; rfl
  | cons index path => cases here

theorem not_whole_unsupported (reason : String) (raw : Json) : ¬(unsupported reason raw).Whole :=
  fun whole => ne_false_of_eq_true rfl (whole [] _ rfl)

theorem whole_combine_iff {c : Combinator} {children : List Filter} :
    (combine c children).Whole ↔ ∀ f ∈ children, f.Whole := by
  constructor
  · intro whole f hf path g here
    obtain ⟨index, found⟩ := List.getElem?_of_mem hf
    exact whole (index :: path) g (node?_cons_eq_some_iff.mpr ⟨f, found, here⟩)
  · intro each path g here
    cases path with
    | nil => cases here; rfl
    | cons index path =>
      obtain ⟨child, found, below⟩ := node?_cons_eq_some_iff.mp here
      exact each child (List.mem_of_getElem? found) path g below

/-- The list of places has every node at its path, and nothing else. -/
theorem mem_places_iff : (path, g) ∈ f.places ↔ f.node? path = some g := by
  induction f generalizing path with
  | leaf l => cases path <;> simp [places, node?, children, eq_comm]
  | unsupported reason raw => cases path <;> simp [places, node?, children, eq_comm]
  | combine c children ih =>
    cases path with
    | nil => simp [places, node?, mem_placesFrom_iff, eq_comm]
    | cons index path =>
      rw [places, List.mem_cons, mem_placesFrom_iff, node?_cons_eq_some_iff]
      constructor
      · rintro (root | ⟨index', child, rest, found, same, here⟩)
        · cases root
        · rw [Nat.zero_add] at same
          cases same
          exact ⟨child, found, (ih child (List.mem_of_getElem? found)).mp here⟩
      · rintro ⟨child, found, here⟩
        refine Or.inr ⟨index, child, path, found, by rw [Nat.zero_add], ?_⟩
        exact (ih child (List.mem_of_getElem? found)).mpr here

theorem map_snd_placesFrom {children : List Filter} {level : Nat}
    (each : ∀ f ∈ children, f.places.map (·.2) = (f.nodes level).map (·.2)) (start : Nat) :
    (placesFrom start children).map (·.2) = (nodesOf level children).map (·.2) := by
  induction children generalizing start with
  | nil => rfl
  | cons f others ih =>
    rw [placesFrom, nodesOf, List.map_append, List.map_append, List.map_map,
      ih fun g hg => each g (List.mem_cons_of_mem f hg)]
    exact congrArg (· ++ _) (each f List.mem_cons_self)

/-- The places come in the order in which the nodes are listed. -/
theorem map_snd_places (f : Filter) (level : Nat) :
    f.places.map (·.2) = (f.nodes level).map (·.2) := by
  induction f generalizing level with
  | leaf l => rfl
  | unsupported reason raw => rfl
  | combine c children ih =>
    rw [places, nodes, List.map_cons, List.map_cons,
      map_snd_placesFrom fun f hf => ih f hf (level + 1)]

/-- The path and the reason of an unsupported node. -/
def rejected? : Path × Filter → Option (Path × String)
  | (path, .unsupported reason _) => some (path, reason)
  | _ => none

theorem rejected?_eq_none_iff {place : Path × Filter} :
    rejected? place = none ↔ place.2.isUnsupported = false := by
  obtain ⟨path, f⟩ := place
  cases f <;> simp [rejected?, isUnsupported]

theorem firstUnsupportedOf?_eq_findSome? {children : List Filter}
    (each : ∀ f ∈ children, f.firstUnsupported? = f.places.findSome? rejected?) (start : Nat) :
    firstUnsupportedOf? start children = (placesFrom start children).findSome? rejected? := by
  induction children generalizing start with
  | nil => rfl
  | cons f others ih =>
    have moved : ((f.places).map fun place => (start :: place.1, place.2)).findSome? rejected? =
        f.firstUnsupported?.map fun found => (start :: found.1, found.2) := by
      rw [each f List.mem_cons_self, List.findSome?_map, List.map_findSome?]
      congr 1
      funext place
      obtain ⟨path, g⟩ := place
      cases g <;> rfl
    rw [firstUnsupportedOf?, placesFrom, List.findSome?_append, moved,
      ← ih (fun g hg => each g (List.mem_cons_of_mem f hg))]
    cases f.firstUnsupported? <;> rfl

/-- The search for the first unsupported node goes through the places in their order. -/
theorem firstUnsupported?_eq_findSome? (f : Filter) :
    f.firstUnsupported? = f.places.findSome? rejected? := by
  induction f with
  | leaf l => rfl
  | unsupported reason raw => rfl
  | combine c children ih =>
    rw [firstUnsupported?, places]
    exact firstUnsupportedOf?_eq_findSome? ih 0

theorem firstUnsupported?_eq_none_iff : f.firstUnsupported? = none ↔ f.Whole := by
  rw [firstUnsupported?_eq_findSome?, List.findSome?_eq_none_iff]
  constructor
  · intro h path g here
    exact rejected?_eq_none_iff.mp (h (path, g) (mem_places_iff.mpr here))
  · intro whole place here
    exact rejected?_eq_none_iff.mpr (whole place.1 place.2 (mem_places_iff.mp here))

theorem validate_eq_ok_iff : f.validate = .ok () ↔ f.Whole := by
  rw [← firstUnsupported?_eq_none_iff, validate]
  cases f.firstUnsupported? <;> simp

theorem validate_eq_error_iff {error : FilterError} :
    f.validate = .error error ↔ ∃ before path reason raw after,
      f.places = before ++ (path, .unsupported reason raw) :: after ∧
      (∀ place ∈ before, place.2.isUnsupported = false) ∧
      error = .unsupportedNode path.render reason := by
  have found : f.validate = .error error ↔ ∃ path reason,
      f.firstUnsupported? = some (path, reason) ∧ error = .unsupportedNode path.render reason := by
    rw [validate]
    cases f.firstUnsupported? with
    | none => simp
    | some first => obtain ⟨path, reason⟩ := first; simp [eq_comm]
  rw [found]
  constructor
  · rintro ⟨path, reason, first, rfl⟩
    rw [firstUnsupported?_eq_findSome?, List.findSome?_eq_some_iff] at first
    obtain ⟨before, ⟨path', g⟩, after, split, here, none_before⟩ := first
    cases g <;> cases here
    exact ⟨before, path, reason, _, after, split,
      fun place mem => rejected?_eq_none_iff.mp (none_before place mem), rfl⟩
  · rintro ⟨before, path, reason, raw, after, split, none_before, rfl⟩
    refine ⟨path, reason, ?_, rfl⟩
    rw [firstUnsupported?_eq_findSome?, List.findSome?_eq_some_iff]
    exact ⟨before, _, after, split, rfl,
      fun place mem => rejected?_eq_none_iff.mpr (none_before place mem)⟩

/-- A path that leads to a node leads to the value this node was decoded from. Where it goes on
below a node the node is a combinator, whose items are the children it came with. -/
theorem exists_follow?_of_node? {v : Json} (h : (ofJson v).node? path = some g) :
    ∃ w, v.follow? path = some w ∧ ofJson w = g := by
  induction path generalizing v with
  | nil => exact ⟨v, rfl, Option.some.inj h⟩
  | cons index path ih =>
    obtain ⟨child, found, below⟩ := node?_cons_eq_some_iff.mp h
    rcases ofJson_cases v with ⟨l, _, made⟩ | ⟨c, items, stands, made⟩ | ⟨rejection, made⟩
    · rw [made] at found
      cases found
    · rw [made, children, List.getElem?_map, Option.map_eq_some_iff] at found
      obtain ⟨w, item, rfl⟩ := found
      obtain ⟨u, followed, decoded⟩ := ih below
      refine ⟨u, ?_, decoded⟩
      have listed : v.filters = items := by rw [Json.filters, stands.filters]
      rw [Json.follow?, listed, item]
      exact followed
    · rw [made] at found
      cases found

/-- **The first error is located exactly.** A filter is valid if every node of it was decoded. If
not, the error has the reason of the unsupported node that comes first when a node is listed before
its children, and the path to it. No other position has this path. Followed in the JSON that the
filter was decoded from, the path to an unsupported node leads to the JSON that the node holds. -/
theorem validate_locates_first (f : Filter) :
    (f.validate = .ok () ↔ f.Whole) ∧
    (∀ error, f.validate = .error error ↔ ∃ before path reason raw after,
      f.places = before ++ (path, .unsupported reason raw) :: after ∧
      (∀ place ∈ before, place.2.isUnsupported = false) ∧
      error = .unsupportedNode path.render reason) ∧
    (∀ path g, (path, g) ∈ f.places ↔ f.node? path = some g) ∧
    f.places.map (·.2) = (f.nodes 1).map (·.2) ∧
    (∀ path : Path, path.render =
      "$" ++ String.join (path.map fun index => ".filters[" ++ toString index ++ "]")) ∧
    (∀ path other : Path, path.render = other.render → path = other) ∧
    ∀ v, f = ofJson v → ∀ path reason raw,
      f.node? path = some (.unsupported reason raw) → v.follow? path = some raw := by
  refine ⟨validate_eq_ok_iff, fun _ => validate_eq_error_iff, fun _ _ => mem_places_iff,
    map_snd_places f 1, Path.render_eq, fun _ _ => Path.render_injective, ?_⟩
  rintro v rfl path reason raw here
  obtain ⟨w, followed, decoded⟩ := exists_follow?_of_node? here
  rw [followed, raw_eq_of_ofJson decoded]

/-- Two nodes of this value cannot be decoded. The second child of the root comes before the third,
and within it the one without a field. -/
def partlyMalformed : Json :=
  .object [("filters", .array [
      .object [("filters", .array []), ("type", .string "and")],
      .object [("filters", .array [.object [("type", .string "date")]]), ("type", .string "or")],
      .null]),
    ("type", .string "and")]

theorem field_missing_located :
    (ofJson partlyMalformed).validate =
        .error (.unsupportedNode "$.filters[1].filters[0]" "missing \"field\"") ∧
      partlyMalformed.follow? [1, 0] = some (.object [("type", .string "date")]) := by
  have located := validate_locates_first (ofJson partlyMalformed)
  constructor
  · refine (located.2.1 _).mpr ⟨[([], ofJson partlyMalformed), ([0], .and []),
        ([1], .or [.unsupported "missing \"field\"" (.object [("type", .string "date")])])],
      [1, 0], "missing \"field\"", .object [("type", .string "date")],
      [([2], .unsupported "expected an object, found null" .null)], rfl, ?_, rfl⟩
    simp only [List.forall_mem_cons]
    exact ⟨rfl, rfl, rfl, fun _ h => absurd h List.not_mem_nil⟩
  · exact located.2.2.2.2.2.2 partlyMalformed rfl [1, 0] "missing \"field\"" _ rfl

end Filter

end Sieve
