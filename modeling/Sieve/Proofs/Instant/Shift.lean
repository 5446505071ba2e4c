import Sieve.Proofs.Instant.Colon
import Sieve.Proofs.Leaf

/-!
The configured offset in the instant of a text. A layout that has an offset in it never looks at the
configured one, and a layout that has none takes the whole reading at it. So the configured offset
moves an instant by exactly itself or it does nothing at all.
-/

namespace Sieve

namespace Layout

open Scan

variable {cs rest : List Char} {reading : Reading} {layout : Layout}

/-- The layout has no offset in it and takes the configured one. -/
def leavesOffset : Layout → Bool
  | .internet => false
  | .mail => false
  | .divided l => !l.offset
  | .dateOnly => false

theorem offset_of_internetReading (h : internetReading cs = some (reading, rest)) :
    reading.offset.isSome = true := by
  unfold internetReading at h
  iterate 13 obtain ⟨_, _, h⟩ := Option.bind_eq_some_iff.mp h
  cases h
  rfl

theorem offset_of_mailReading (h : mailReading cs = some (reading, rest)) :
    reading.offset.isSome = true := by
  unfold mailReading at h
  iterate 13 obtain ⟨_, _, h⟩ := Option.bind_eq_some_iff.mp h
  obtain ⟨_, made⟩ := Option.ite_none_right_eq_some.mp h
  cases made
  rfl

theorem offset_of_dividedReading {l : DividedLayout}
    (h : dividedReading l cs = some (reading, rest)) : reading.offset.isSome = l.offset := by
  rw [dividedReading_eq] at h
  simp only [Option.bind_eq_some_iff, Option.map_eq_some_iff] at h
  obtain ⟨_, _, _, _, found, read, made⟩ := h
  cases made
  rw [offsetPart] at read
  cases present : l.offset with
  | true =>
    rw [present, if_pos rfl] at read
    obtain ⟨_, _, made⟩ := Option.map_eq_some_iff.mp read
    cases made
    rfl
  | false =>
    rw [present] at read
    cases read
    rfl

theorem offset_of_dateOnlyReading (h : dateOnlyReading cs = some (reading, rest)) :
    reading.offset.isSome = true := by
  simp only [dateOnlyReading, Option.bind_eq_bind, Option.bind_eq_some_iff] at h
  obtain ⟨_, _, h⟩ := h
  split at h
  · cases h
    rfl
  · simp only [Option.bind_eq_some_iff] at h
    obtain ⟨_, _, _, _, h⟩ := h
    split at h
    · cases h
      rfl
    · simp only [Option.bind_eq_some_iff] at h
      obtain ⟨_, _, _, _, made⟩ := h
      cases made
      rfl

/-- A reading has an offset unless its layout leaves it out. -/
theorem isSome_offset_of_read? (h : layout.read? cs = some reading) :
    reading.offset.isSome = !layout.leavesOffset := by
  have scanned := (read?_eq_some_iff.mp h).1
  cases layout with
  | internet => exact offset_of_internetReading scanned
  | mail => exact offset_of_mailReading scanned
  | divided l =>
    rw [leavesOffset, Bool.not_not]
    exact offset_of_dividedReading scanned
  | dateOnly => exact offset_of_dateOnlyReading scanned

theorem instant?_of_leavesOffset (leaves : layout.leavesOffset = true) (configured : UtcOffset)
    (cs : List Char) :
    layout.instant? configured cs =
      (layout.read? cs).map fun reading => ⟨reading.millisAt? configured.seconds⟩ := by
  rw [instant?]
  cases read : layout.read? cs with
  | none => rfl
  | some reading =>
    have without := isSome_offset_of_read? read
    rw [leaves, Bool.not_true, Option.isSome_eq_false_iff, Option.isNone_iff_eq_none] at without
    simp only [without, Option.map_some]

/-- A layout with an offset in it does not look at the configured one. -/
theorem instant?_of_not_leavesOffset (has : layout.leavesOffset = false)
    (configured other : UtcOffset) (cs : List Char) :
    layout.instant? configured cs = layout.instant? other cs := by
  rw [instant?, instant?]
  cases read : layout.read? cs with
  | none => rfl
  | some reading =>
    have present := isSome_offset_of_read? read
    rw [has, Bool.not_false, Option.isSome_iff_exists] at present
    obtain ⟨offset, present⟩ := present
    simp only [present]

/-- Whichever layouts are tried, the first that decides a text either does so without the configured
offset or takes one reading at it. -/
theorem findSome?_instant? (layouts : List Layout) (cs : List Char) :
    (∃ found, ∀ configured : UtcOffset,
      (layouts.findSome? fun layout => layout.instant? configured cs) = found) ∨
    ∃ reading : Reading, ∀ configured : UtcOffset,
      (layouts.findSome? fun layout => layout.instant? configured cs) =
        some ⟨reading.millisAt? configured.seconds⟩ := by
  induction layouts with
  | nil => exact Or.inl ⟨none, fun _ => rfl⟩
  | cons layout layouts ih =>
    simp only [List.findSome?_cons]
    cases leaves : layout.leavesOffset with
    | true =>
      simp only [instant?_of_leavesOffset leaves]
      cases layout.read? cs with
      | none => exact ih
      | some reading => exact Or.inr ⟨reading, fun _ => rfl⟩
    | false =>
      have same (configured : UtcOffset) :
          layout.instant? configured cs = layout.instant? .utc cs :=
        instant?_of_not_leavesOffset leaves configured .utc cs
      simp only [same]
      cases layout.instant? .utc cs with
      | none => exact ih
      | some instant => exact Or.inl ⟨some instant, fun _ => rfl⟩

/-- A layout that leaves the offset out has a time in it, and so a colon. -/
theorem read?_eq_none_of_no_colon (leaves : layout.leavesOffset = true) (no_colon : ':' ∉ cs) :
    layout.read? cs = none := by
  rw [Option.eq_none_iff_forall_ne_some]
  intro reading read
  rw [eq_dateOnly_of_read? no_colon read] at leaves
  cases leaves

/-- Where no layout without an offset reads the text, the configured offset is not looked at. -/
theorem findSome?_instant?_same (cs : List Char) (layouts : List Layout)
    (unread : ∀ layout ∈ layouts, layout.leavesOffset = true → layout.read? cs = none)
    (configured other : UtcOffset) :
    (layouts.findSome? fun layout => layout.instant? configured cs) =
      layouts.findSome? fun layout => layout.instant? other cs := by
  induction layouts with
  | nil => rfl
  | cons layout layouts ih =>
    obtain ⟨here, later⟩ := List.forall_mem_cons.mp unread
    have same : layout.instant? configured cs = layout.instant? other cs := by
      cases leaves : layout.leavesOffset with
      | true =>
        rw [instant?_of_leavesOffset leaves, instant?_of_leavesOffset leaves, here leaves]
        rfl
      | false => exact instant?_of_not_leavesOffset leaves configured other cs
    rw [List.findSome?_cons, List.findSome?_cons, same, ih later]

/-- The layout reads the text, and what it says is a point in time. -/
def Takes (layout : Layout) (text : String) : Prop :=
  ∃ configured, (layout.instant? configured (Text.trim text.toList)).isSome = true

end Layout

namespace Instant

/-- The text names the same instant, or none, at every configured offset. -/
def Fixed (text : String) : Prop :=
  ∀ configured other : UtcOffset, parse text configured = parse text other

/-- The instants that the text names at two offsets lie exactly as far apart as these do. -/
def Shifts (text : String) : Prop :=
  ∀ (configured other : UtcOffset) (a b : Int), (parse text configured).millis? = some a →
    (parse text other).millis? = some b → b - a = 1000 * (configured.seconds - other.seconds)

theorem shifts_of_reading {text : String} {reading : Reading}
    (h : ∀ configured, parse text configured = ⟨reading.millisAt? configured.seconds⟩) :
    Shifts text := by
  intro configured other a b at_configured at_other
  rw [h] at at_configured at_other
  obtain ⟨_, here⟩ := Reading.millisAt?_eq_some_iff.mp at_configured
  obtain ⟨_, there⟩ := Reading.millisAt?_eq_some_iff.mp at_other
  simp only [Reading.seconds] at here there
  omega

theorem fixed_or_shifts (text : String) : Fixed text ∨ Shifts text := by
  rcases Layout.findSome?_instant? Layout.all (Text.trim text.toList) with
    ⟨found, same⟩ | ⟨reading, taken⟩
  · refine Or.inl fun configured other => ?_
    simp only [parse, same]
  · have taken (configured : UtcOffset) :
        parse text configured = ⟨reading.millisAt? configured.seconds⟩ := by
      simp only [parse, taken]
      rfl
    exact Or.inr (shifts_of_reading taken)

/-- A text that some layout takes as it stands names one instant: the layouts with an offset in them
are tried before all others, and one that takes a date alone leaves nothing to the others. -/
theorem fixed_of_takes {layout : Layout} {text : String} (tried : layout ∈ Layout.all)
    (has : layout.leavesOffset = false) (takes : layout.Takes text) : Fixed text := by
  intro configured other
  have first_have : ∀ layout ∈ Layout.all.take 5, layout.leavesOffset = false := by decide
  have last_has : ∀ layout ∈ Layout.all.drop 5, layout.leavesOffset = false →
      layout = .dateOnly := by
    decide
  obtain ⟨at_some, decided⟩ := takes
  rw [← List.take_append_drop 5 Layout.all] at tried
  rcases List.mem_append.mp tried with first | last
  · -- One of the first five decides, and none of them looks at the configured offset.
    have same := Layout.findSome?_instant?_same (Text.trim text.toList) _
      (fun layout mem leaves => absurd (first_have layout mem) (by rw [leaves]; decide))
    have found (configured : UtcOffset) : ((Layout.all.take 5).findSome? fun layout =>
        layout.instant? configured (Text.trim text.toList)).isSome = true := by
      rw [same configured at_some, List.findSome?_isSome_iff]
      exact ⟨layout, first, decided⟩
    rw [parse, parse, ← List.take_append_drop 5 Layout.all]
    simp only [List.findSome?_append, Option.or_of_isSome (found _), same configured other]
  · have alone := last_has layout last has
    subst alone
    obtain ⟨reading, read⟩ : ∃ reading, Layout.dateOnly.read? (Text.trim text.toList) =
        some reading := by
      rw [Layout.instant?] at decided
      cases read : Layout.dateOnly.read? (Text.trim text.toList) with
      | none => rw [read] at decided; cases decided
      | some reading => exact ⟨reading, rfl⟩
    have no_colon := Layout.colon_not_mem_of_dateOnlyReading (Layout.read?_eq_some_iff.mp read).1
    have same := Layout.findSome?_instant?_same (Text.trim text.toList) Layout.all
      (fun _ _ leaves => Layout.read?_eq_none_of_no_colon leaves no_colon) configured other
    simp only [parse, same]

end Instant

/-- Operations compare instants, so they see no common shift. -/
theorem DateOperation.holds_of_apart {a b a' b' : Int} (h : a' - a = b' - b)
    (operation : DateOperation) :
    operation.holds ⟨some a⟩ ⟨some b⟩ = operation.holds ⟨some a'⟩ ⟨some b'⟩ := by
  cases operation <;>
    simp only [holds, Instant.sameAs, Instant.isAfter, Instant.isBefore, Instant.related,
      decide_eq_decide] <;>
    omega

namespace Leaf

open Instant

theorem run_of_shifts {field literal held : String} (operation : DateOperation) {r : Record}
    (shifts : Shifts literal) (shifts' : Shifts held) (here : r.get? field = some (.text held))
    {configured other : UtcOffset}
    (valid : ∀ text ∈ [literal, held], ∀ offset ∈ [configured, other],
      (parse text offset).isValid = true) :
    (date ⟨field, operation, .text literal⟩).run configured r =
      (date ⟨field, operation, .text literal⟩).run other r := by
  have moment (text : String) (mem : text ∈ [literal, held]) (offset : UtcOffset)
      (mem' : offset ∈ [configured, other]) : ∃ a, parse text offset = ⟨some a⟩ := by
    have valid := valid text mem offset mem'
    cases found : parse text offset with
    | mk millis? =>
      rw [found] at valid
      obtain ⟨a, rfl⟩ := Option.isSome_iff_exists.mp valid
      exact ⟨a, rfl⟩
  obtain ⟨a, literal_at⟩ := moment literal (by simp) configured (by simp)
  obtain ⟨a', literal_at'⟩ := moment literal (by simp) other (by simp)
  obtain ⟨b, held_at⟩ := moment held (by simp) configured (by simp)
  obtain ⟨b', held_at'⟩ := moment held (by simp) other (by simp)
  have literal_moves := shifts configured other a a' (by rw [literal_at]) (by rw [literal_at'])
  have held_moves := shifts' configured other b b' (by rw [held_at]) (by rw [held_at'])
  have apart := operation.holds_of_apart (held_moves.trans literal_moves.symm)
  rw [run_date_of_text here, run_date_of_text here]
  simp only [onDate, instantOf, literal_at, literal_at', held_at, held_at', apart]
  rfl

end Leaf

namespace Instant

/-- **The configured offset shifts an instant by itself or not at all.** Every text names the same
instant at all offsets, or instants that lie as far apart as the offsets do; it is the former if any
layout takes it that has an offset in it or that takes a date alone. So a date leaf whose literal
and field are both of the latter kind runs the same at any two offsets at which both are points in
time. -/
theorem shifts_exactly_or_not_at_all (text : String) :
    (Fixed text ∨ Shifts text) ∧
    (∀ layout ∈ Layout.all, layout.leavesOffset = false → layout.Takes text → Fixed text) ∧
    ∀ held, Shifts text → Shifts held → ∀ (field : String) (operation : DateOperation) (r : Record),
      r.get? field = some (.text held) → ∀ configured other : UtcOffset,
      (∀ side ∈ [text, held], ∀ offset ∈ [configured, other],
        (parse side offset).isValid = true) →
      (Leaf.date ⟨field, operation, .text text⟩).run configured r =
        (Leaf.date ⟨field, operation, .text text⟩).run other r := by
  refine ⟨fixed_or_shifts text, fun layout tried has takes => fixed_of_takes tried has takes, ?_⟩
  intro held shifts shifts' field operation r here configured other valid
  exact Leaf.run_of_shifts operation shifts shifts' here valid

/-- Two hours east of Greenwich. -/
def twoHoursEast : UtcOffset := ⟨7200, by decide, by decide⟩

/-- A text with a letter for its offset, and two without an offset that move together. -/
theorem letter_fixed_and_bare_times_shift :
    (Layout.divided ⟨false, false, true⟩ ∈ Layout.all ∧
      (Layout.divided ⟨false, false, true⟩).leavesOffset = false ∧
      (Layout.divided ⟨false, false, true⟩).Takes "2023-06-15T10:00Z" ∧
      Fixed "2023-06-15T10:00Z") ∧
    (¬Fixed "2023-06-15 10:00" ∧ Shifts "2023-06-15 10:00" ∧ Shifts "2023-06-15T09:30:60.5") ∧
    (Leaf.date ⟨"d", .after, .text "2023-06-15 10:00"⟩).run twoHoursEast
        (Record.empty.insert "d" (.text "2023-06-15T09:30:60.5")) =
      (Leaf.date ⟨"d", .after, .text "2023-06-15 10:00"⟩).run .utc
        (Record.empty.insert "d" (.text "2023-06-15T09:30:60.5")) := by
  have tried : Layout.divided ⟨false, false, true⟩ ∈ Layout.all := by decide
  have takes : (Layout.divided ⟨false, false, true⟩).Takes "2023-06-15T10:00Z" :=
    ⟨.utc, by decide +kernel⟩
  have fixed := (shifts_exactly_or_not_at_all "2023-06-15T10:00Z").2.1 _ tried rfl takes
  have moves : ¬Fixed "2023-06-15 10:00" := by
    intro fixed
    exact absurd (fixed twoHoursEast .utc) (by decide +kernel)
  have moves' : ¬Fixed "2023-06-15T09:30:60.5" := by
    intro fixed
    exact absurd (fixed twoHoursEast .utc) (by decide +kernel)
  obtain ⟨either, _, leaf⟩ := shifts_exactly_or_not_at_all "2023-06-15 10:00"
  have shifts := either.resolve_left moves
  have shifts' := (shifts_exactly_or_not_at_all "2023-06-15T09:30:60.5").1.resolve_left moves'
  have here : (Record.empty.insert "d" (.text "2023-06-15T09:30:60.5")).get? "d" =
      some (.text "2023-06-15T09:30:60.5") := by
    decide
  have valid : ∀ side ∈ ["2023-06-15 10:00", "2023-06-15T09:30:60.5"],
      ∀ offset ∈ [twoHoursEast, .utc], (parse side offset).isValid = true := by
    decide +kernel
  exact ⟨⟨tried, rfl, takes, fixed⟩, ⟨moves, shifts, shifts'⟩,
    leaf _ shifts shifts' "d" .after _ here _ _ valid⟩

end Instant

end Sieve
