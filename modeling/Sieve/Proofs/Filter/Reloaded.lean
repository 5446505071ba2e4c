import Sieve.Proofs.Binary64
import Sieve.Proofs.Filter.Place
import Sieve.Proofs.Filter.Written

/-!
Filters through their JSON value, without its text. The value of a filter decodes to the filter
itself, apart from what JSON has no literal for and from nodes that were kept undecoded. These are
decoded anew from the JSON they hold, which is a good filter only if the node was built by hand.
-/

namespace Sieve

open Json

namespace Leaf

/-- The leaf as its value decodes. A number that is not finite is written as null, and then the node
is no leaf; a native date becomes its text. -/
def reloaded : Leaf → Filter
  | .string c => .leaf (.string c)
  | .number c =>
    if c.literal.isFinite = true then .leaf (.number c)
    else .unsupported "\"value\" must be a number, found null" (Leaf.number c).toJson
  | .boolean c => .leaf (.boolean c)
  | .date c =>
    match c.literal with
    | .native t => .leaf (.date ⟨c.field, c.operation, .text t.render⟩)
    | .text _ => .leaf (.date c)

theorem toJson_eq_members (l : Leaf) : l.toJson = .object (l.members l.literalJson) := rfl

theorem ofJson_toJson (l : Leaf) : Filter.ofJson l.toJson = l.reloaded := by
  rw [toJson_eq_members]
  cases l with
  | string c => exact Filter.ofJson_leaf (standsIn_members rfl)
  | boolean c => exact Filter.ofJson_leaf (standsIn_members rfl)
  | date c =>
    obtain ⟨field, operation, d⟩ := c
    cases d with
    | native t => exact Filter.ofJson_leaf (standsIn_members rfl)
    | text s => exact Filter.ofJson_leaf (standsIn_members rfl)
  | number c =>
    by_cases finite : c.literal.isFinite = true
    · have back : withLiteral? (.number c) (literalJson (.number c)) = some (.number c) := by
        rw [literalJson, ofBinary64, dif_pos finite]
        rfl
      rw [reloaded, if_pos finite]
      exact Filter.ofJson_leaf (standsIn_members back)
    · have null : literalJson (.number c) = .null := by
        rw [literalJson, ofBinary64, dif_neg finite]
      rw [reloaded, if_neg finite, toJson_eq_members, null]
      exact Filter.ofJson_wrongLiteral rfl

/-- What was decoded is decoded to the same leaf again: every number in JSON is finite, and every
date is text. -/
theorem reloaded_of_standsIn {l : Leaf} {v : Json} (h : l.StandsIn v) :
    l.reloaded = .leaf l := by
  obtain ⟨value, _, from_value⟩ := h.literal
  cases l with
  | string c => rfl
  | boolean c => rfl
  | number c =>
    obtain ⟨n, _, literal⟩ := from_value
    rw [reloaded, if_pos (literal ▸ n.isFinite_toBinary64)]
  | date c =>
    obtain ⟨s, _, literal⟩ := from_value
    rw [reloaded, literal]

end Leaf

namespace Filter

mutual

/-- The filter as its value decodes. -/
def reloaded : Filter → Filter
  | .leaf l => l.reloaded
  | .combine c children => .combine c (reloadedAll children)
  | .unsupported _ raw => ofJson raw
termination_by structural f => f

def reloadedAll : List Filter → List Filter
  | [] => []
  | f :: rest => reloaded f :: reloadedAll rest
termination_by structural fs => fs

end

theorem toJsonAll_eq_map (children : List Filter) : toJsonAll children = children.map toJson := by
  induction children with
  | nil => rfl
  | cons f rest ih => rw [toJsonAll, List.map_cons, ih]

theorem reloadedAll_eq_map (children : List Filter) :
    reloadedAll children = children.map reloaded := by
  induction children with
  | nil => rfl
  | cons f rest ih => rw [reloadedAll, List.map_cons, ih]

theorem toJson_combine (c : Combinator) (children : List Filter) :
    (combine c children).toJson = .object (c.members (children.map toJson)) := by
  rw [toJson, toJsonAll_eq_map]
  rfl

theorem reloaded_combine (c : Combinator) (children : List Filter) :
    (combine c children).reloaded = .combine c (children.map reloaded) := by
  rw [reloaded, reloadedAll_eq_map]

theorem ofJson_toJson_combine (c : Combinator) (children : List Filter) :
    ofJson (combine c children).toJson = .combine c (children.map fun f => ofJson f.toJson) := by
  rw [toJson_combine, ofJson_combine, List.map_map]
  rfl

theorem ofJson_toJson (f : Filter) : ofJson f.toJson = f.reloaded := by
  induction f with
  | leaf l => exact l.ofJson_toJson
  | unsupported reason raw => rfl
  | combine c children ih => rw [ofJson_toJson_combine, reloaded_combine, List.map_congr_left ih]

/-- Nodes stay where they are. -/
theorem node?_reloaded {f g : Filter} {path : Path} (h : f.node? path = some g) :
    f.reloaded.node? path = some g.reloaded := by
  induction path generalizing f with
  | nil => cases h; rfl
  | cons index path ih =>
    obtain ⟨child, found, below⟩ := node?_cons_eq_some_iff.mp h
    cases f with
    | leaf l => cases found
    | unsupported reason raw => cases found
    | combine c children =>
      rw [reloaded_combine]
      refine node?_cons_eq_some_iff.mpr ⟨child.reloaded, ?_, ih below⟩
      rw [Filter.children] at found ⊢
      rw [List.getElem?_map, found]
      rfl

/-- The induction goes over the decoded filter. An undecoded node is written as the very value it
came as, so it is refused again and for the same reason. -/
theorem ofJson_toJson_of_ofJson {v : Json} {f : Filter} (decoded : ofJson v = f) :
    ofJson f.toJson = f := by
  induction f generalizing v with
  | leaf l =>
    rw [ofJson_toJson, reloaded]
    exact Leaf.reloaded_of_standsIn (ofJson_eq_leaf_iff.mp decoded)
  | unsupported reason raw =>
    obtain rfl := raw_eq_of_ofJson decoded
    exact decoded
  | combine c children ih =>
    obtain ⟨items, _, rfl⟩ := ofJson_eq_combine_iff.mp decoded
    have each : ∀ f ∈ items.map ofJson, ofJson f.toJson = f := by
      intro f hf
      obtain ⟨w, _, made⟩ := List.mem_map.mp hf
      exact ih f hf made
    rw [ofJson_toJson_combine, List.map_congr_left each, List.map_id']

/-- **Decoding the value of a filter.** It gives the filter itself with three changes, each made
wherever it is due: a number that is not finite is kept undecoded because of the null in its place,
a native date becomes its text, and an undecoded node becomes whatever the JSON it holds decodes to.
So what was once decoded from JSON comes back unchanged, its undecoded nodes included. -/
theorem decode_encode :
    (∀ f : Filter, ofJson f.toJson = f.reloaded) ∧
    (∀ (f : Filter) path g, f.node? path = some g →
      (ofJson f.toJson).node? path = some g.reloaded) ∧
    ∀ v, ofJson (ofJson v).toJson = ofJson v := by
  refine ⟨ofJson_toJson, fun f path g here => ?_, fun v => ofJson_toJson_of_ofJson rfl⟩
  rw [ofJson_toJson]
  exact node?_reloaded here

/-- A filter no text is parsed as: a number that is none, a native date, and an undecoded node whose
JSON could be decoded. -/
def handBuilt : Filter :=
  .and [.number "n" .gt ⟨0x7ff8000000000000⟩,
    .date "d" .before (.native ⟨1, 500000000, by decide, by decide, by decide⟩),
    .unsupported "given up" (.object [("filters", .array []), ("type", .string "or")])]

theorem hand_built_reloaded :
    (ofJson handBuilt.toJson).node? [0] =
      some (.unsupported "\"value\" must be a number, found null"
        (.object [("field", .string "n"), ("operation", .string "gt"), ("type", .string "number"),
          ("value", .null)])) ∧
    (ofJson handBuilt.toJson).node? [1] =
      some (.date "d" .before (.text "1970-01-01T00:00:01.500Z")) ∧
    (ofJson handBuilt.toJson).node? [2] = some (.or []) := by
  have shown : Timestamp.render ⟨1, 500000000, by decide, by decide, by decide⟩ =
      "1970-01-01T00:00:01.500Z" := by
    decide +kernel
  have nodes := decode_encode.2.1 handBuilt
  refine ⟨nodes [0] _ rfl, ?_, nodes [2] _ rfl⟩
  rw [← shown]
  exact nodes [1] _ rfl

end Filter

end Sieve
