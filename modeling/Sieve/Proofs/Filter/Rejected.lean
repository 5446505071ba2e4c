import Sieve.Proofs.Filter.Parsing
import Sieve.Proofs.Leaf
import Sieve.Proofs.Verdict

/-!
The nodes that cannot be decoded, and what is logged of them. Decoding logs a node when it is done
with it, children first. The log nevertheless lists nodes before their children, because a node that
is logged has none. Evaluation logs again those of these nodes that it comes to, in the same order.
-/

namespace Sieve

/-- The reason in the log of an undecoded node that is evaluated. -/
def Event.failure? : Event → Option String
  | .nodeFails reason => some reason
  | _ => none

namespace Filter

/-- The reason why a node was not decoded. -/
def reason? : Filter → Option String
  | .unsupported reason _ => some reason
  | _ => none

/-- The reasons of all nodes that were not decoded, a node before its children and these in their
order. -/
def rejections (f : Filter) : List String := (f.nodes 1).filterMap (·.2.reason?)

variable {o : Options} {r : Record} {level : Nat}

/-- The places come in the order of the nodes, whatever level the root is given. -/
theorem filterMap_nodes (f : Filter) (level : Nat) :
    (f.nodes level).filterMap (·.2.reason?) = f.places.filterMap (·.2.reason?) := by
  have same_nodes := congrArg (List.filterMap reason?) (map_snd_places f level)
  rw [List.filterMap_map, List.filterMap_map] at same_nodes
  exact same_nodes.symm

theorem rejections_combine (c : Combinator) (children : List Filter) :
    (combine c children).rejections = children.flatMap rejections := by
  rw [rejections, nodes, nodesOf_eq_flatMap, List.filterMap_cons_none rfl, List.filterMap_flatMap]
  refine List.flatMap_congr fun f _ => ?_
  rw [rejections, filterMap_nodes, filterMap_nodes]

/-- The search for the first unsupported node finds the first of these reasons. -/
theorem head?_rejections (f : Filter) :
    f.rejections.head? = f.firstUnsupported?.map (·.2) := by
  have located (place : Path × Filter) : place.2.reason? = (rejected? place).map (·.2) := by
    obtain ⟨path, g⟩ := place
    cases g <;> rfl
  rw [rejections, filterMap_nodes, List.head?_filterMap, firstUnsupported?_eq_findSome?,
    List.map_findSome?]
  congr 1
  funext place
  exact located place

/-- The induction goes over the decoded filter. A combinator logs nothing of its own, and a node that
is logged has nothing below it. -/
theorem events_decode (v : Json) : (decode v).events = (ofJson v).rejections.map .nodeKept := by
  generalize decoded : ofJson v = f
  induction f generalizing v with
  | leaf l =>
    rw [decode_leaf (ofJson_eq_leaf_iff.mp decoded)]
    rfl
  | unsupported reason raw =>
    rcases decode_cases v with ⟨l, _, made⟩ | ⟨c, items, _, made⟩ | ⟨rejection, made⟩
    · rw [ofJson, made] at decoded
      cases decoded
    · rw [ofJson, made] at decoded
      cases decoded
    · rw [ofJson, made] at decoded
      cases decoded
      rw [made]
      rfl
  | combine c children ih =>
    obtain ⟨items, stands, rfl⟩ := ofJson_eq_combine_iff.mp decoded
    have each : ∀ w ∈ items, (decode w).events = (ofJson w).rejections.map .nodeKept :=
      fun w hw => ih (ofJson w) (List.mem_map_of_mem hw) w rfl
    rw [decode_combinator stands, rejections_combine, List.map_flatMap, List.flatMap_map]
    exact List.flatMap_congr each

/-- What is logged first is the node that a check of the filter finds. -/
theorem head?_events_decode (v : Json) :
    (decode v).events.head? = (ofJson v).firstUnsupported?.map fun found => .nodeKept found.2 := by
  rw [events_decode, List.head?_map, head?_rejections, Option.map_map]
  rfl

theorem events_decode_eq_nil_iff {v : Json} :
    (decode v).events = [] ↔ (ofJson v).validate = .ok () := by
  rw [← List.head?_eq_none_iff, head?_events_decode, validate]
  cases (ofJson v).firstUnsupported? <;> simp

theorem head?_events_decode_eq_some_iff {v : Json} {reason : String} :
    (decode v).events.head? = some (.nodeKept reason) ↔
      ∃ path, (ofJson v).validate = .error (.unsupportedNode path reason) := by
  rw [head?_events_decode, validate]
  cases (ofJson v).firstUnsupported? <;> simp

/-- Parsing looks at the filter only after all of it was decoded, and does not log what it finds. -/
theorem parseLogged_of_ofText {text : String} {v : Json} (h : Json.ofText text = .ok v) :
    parseLogged text = ⟨(ofJson v).validated, (decode v).events⟩ := by
  have lenient : parseLenientLogged text = ⟨.ok (ofJson v), (decode v).events⟩ := by
    rw [parseLenientLogged, h]
    exact congrArg (Logged.mk _) (List.append_nil _)
  rw [parseLogged, lenient]
  exact congrArg (Logged.mk _) (List.append_nil _)

theorem failures_leaf (l : Leaf) (offset : UtcOffset) (r : Record) :
    (l.run offset r).events.filterMap Event.failure? = [] := by
  apply List.filterMap_eq_nil_iff.mpr
  intro event logged
  rcases Leaf.mem_events_run logged with ⟨actual, rfl⟩ | ⟨fieldValid, literalValid, rfl⟩ <;> rfl

/-- Children after the deciding one are passed over, the others are evaluated in their order. -/
theorem failures_runUntil (deciding : Bool) {children : List Filter}
    (each : ∀ f ∈ children,
      ((f.run o r level).events.filterMap Event.failure?).Sublist f.rejections) :
    ((runUntil o r level deciding children).events.filterMap Event.failure?).Sublist
      (children.flatMap rejections) := by
  induction children with
  | nil => exact List.Sublist.refl []
  | cons f rest ih =>
    have first := each f List.mem_cons_self
    have later := ih fun g hg => each g (List.mem_cons_of_mem f hg)
    rw [runUntil, Logged.events_bind, List.filterMap_append, List.flatMap_cons]
    refine first.append ?_
    split
    · exact List.nil_sublist _
    · exact later

/-- Evaluation comes to undecoded nodes in their order. It need not come to all of them. -/
theorem failures_run (f : Filter) (o : Options) (r : Record) (level : Nat) :
    ((f.run o r level).events.filterMap Event.failure?).Sublist f.rejections := by
  induction f, level using levelInduction o with
  | exceeded f level budget past => rw [run_exceeded past]; exact List.nil_sublist _
  | unsupported reason raw level within => rw [run_unsupported within]; exact List.Sublist.refl _
  | leaf l level within => rw [run_leaf within, failures_leaf]; exact List.nil_sublist _
  | combine c children level within ih =>
    rw [run_combine within, rejections_combine]
    exact failures_runUntil c.deciding ih

/-- **The log of decoding lists the undecoded nodes.** There is one event for each of them, with its
reason, a node before its children and these in their order. So nothing is logged if and only if the
filter is valid, and what is logged first is the reason that strict parsing gives for refusing it.
Evaluating the filter logs a subsequence of the same reasons, on every record and under all options.
-/
theorem decode_logs_rejections (v : Json) :
    (decode v).events = (ofJson v).rejections.map .nodeKept ∧
    ((decode v).events = [] ↔ (ofJson v).validate = .ok ()) ∧
    (∀ reason, (decode v).events.head? = some (.nodeKept reason) ↔
      ∃ path, (ofJson v).validate = .error (.unsupportedNode path reason)) ∧
    (∀ text, Json.ofText text = .ok v → (parseLogged text).events = (decode v).events ∧
      ∀ reason, (decode v).events.head? = some (.nodeKept reason) ↔
        ∃ path, parse text = .error (.unsupportedNode path reason)) ∧
    ∀ o r, (((ofJson v).run o r 1).events.filterMap Event.failure?).Sublist
      (ofJson v).rejections := by
  refine ⟨events_decode v, events_decode_eq_nil_iff, fun _ => head?_events_decode_eq_some_iff,
    fun text h => ?_, fun o r => failures_run _ o r 1⟩
  have logged := parseLogged_of_ofText h
  refine ⟨congrArg Logged.events logged, fun reason => ?_⟩
  have parsed : parse text = (ofJson v).validated := congrArg Logged.value logged
  rw [head?_events_decode_eq_some_iff, parsed, validated]
  cases (ofJson v).validate <;> simp [Except.map]

/-- Of two undecoded nodes both are logged, the first one is reported, and the evaluation of the
filter ends with it. -/
theorem second_of_two_unreached :
    (Json.ofText partlyMalformed.render = .ok partlyMalformed ∧
      (parseLogged partlyMalformed.render).events =
        [.nodeKept "missing \"field\"", .nodeKept "expected an object, found null"] ∧
      ∃ path, parse partlyMalformed.render =
        .error (.unsupportedNode path "missing \"field\"")) ∧
    (((ofJson partlyMalformed).run .default .empty 1).events.filterMap Event.failure? =
        ["missing \"field\""] ∧
      (["missing \"field\""]).Sublist (ofJson partlyMalformed).rejections) := by
  have read : Json.ofText partlyMalformed.render = .ok partlyMalformed := by
    rw [Json.ofText_render_eq_ok_iff]
    rfl
  have reached : ((ofJson partlyMalformed).run .default .empty 1).events.filterMap Event.failure? =
      ["missing \"field\""] := by
    rfl
  obtain ⟨_, _, _, texts, evaluated⟩ := decode_logs_rejections partlyMalformed
  obtain ⟨log, reported⟩ := texts _ read
  have evaluation := evaluated .default .empty
  rw [reached] at evaluation
  exact ⟨⟨read, log, (reported _).mp rfl⟩, reached, evaluation⟩

end Filter

end Sieve
