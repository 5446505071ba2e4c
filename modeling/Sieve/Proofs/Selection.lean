import Mathlib.Data.List.Basic
import Sieve.Proofs.Trace

/-!
Choosing among records. The records that match are told by their positions or given themselves, and
every record is evaluated once, in its turn. So either choice logs what evaluating one record after
the other logs; the one by positions ends with a count of what it was given and what it chose.
-/

namespace Sieve.Filter

variable {f : Filter} {o : Options} {records : List Record}

theorem verdicts_eq (f : Filter) (o : Options) (records : List Record) :
    f.verdicts o records =
      ⟨records.map (f.accepts o), records.flatMap fun r => (f.run o r 1).events⟩ := by
  induction records with
  | nil => rfl
  | cons r rest ih =>
    rw [verdicts, ih, List.map_cons, List.flatMap_cons]
    exact congrArg (Logged.mk _) (congrArg (_ ++ ·) (List.append_nil _))

theorem select_eq (f : Filter) (o : Options) (records : List Record) :
    f.select o records = ((records.zipIdx).filter fun entry => f.accepts o entry.1).map (·.2) := by
  have chosen : f.select o records = positions (f.verdicts o records).value := rfl
  rw [chosen, verdicts_eq, positions, List.zipIdx_map, List.filter_map, List.map_map]
  rfl

theorem keep_eq_filter (f : Filter) (o : Options) (records : List Record) :
    f.keep o records = records.filter (f.accepts o) := by
  have kept : f.keep o records =
      ((records.zip (f.verdicts o records).value).filter (·.2)).map (·.1) :=
    rfl
  have paired : records.zip (records.map (f.accepts o)) =
      records.map fun r => (r, f.accepts o r) := by
    simpa using List.zip_map' (f := id) (g := f.accepts o) (l := records)
  rw [kept, verdicts_eq, paired, List.filter_map, List.map_map]
  exact List.map_id _

theorem mem_select_iff {index : Nat} :
    index ∈ f.select o records ↔ ∃ r, records[index]? = some r ∧ f.accepts o r = true := by
  rw [select_eq]
  simp [List.mem_zipIdx_iff_getElem?]

theorem pairwise_lt_select : (f.select o records).Pairwise (· < ·) := by
  have among : (f.select o records).Sublist (List.range' 0 records.length) := by
    rw [select_eq, ← List.zipIdx_map_snd]
    exact List.filter_sublist.map _
  exact List.Pairwise.sublist among List.pairwise_lt_range'

/-- The records at the chosen positions are the ones that are kept. -/
theorem map_getElem?_select :
    (f.select o records).map (records[·]?) = (f.keep o records).map some := by
  have located : ∀ entry ∈ (records.zipIdx).filter fun entry => f.accepts o entry.1,
      records[entry.2]? = some entry.1 :=
    fun entry h => List.mem_zipIdx_iff_getElem?.mp (List.mem_of_mem_filter h)
  have again : records.filter (f.accepts o) =
      ((records.zipIdx).filter fun entry => f.accepts o entry.1).map (·.1) := by
    conv => lhs; rw [← List.zipIdx_map_fst 0 records, List.filter_map]
    rfl
  rw [select_eq, keep_eq_filter, again, List.map_map, List.map_map]
  exact List.map_congr_left located

theorem keep_append (f : Filter) (o : Options) (records more : List Record) :
    f.keep o (records ++ more) = f.keep o records ++ f.keep o more := by
  rw [keep_eq_filter, keep_eq_filter, keep_eq_filter, List.filter_append]

/-- The positions in a list that comes after another one are moved by the length of that one. -/
theorem select_append (f : Filter) (o : Options) (records more : List Record) :
    f.select o (records ++ more) =
      f.select o records ++ (f.select o more).map (records.length + ·) := by
  have moved : more.zipIdx (0 + records.length) =
      more.zipIdx.map fun entry => (entry.1, records.length + entry.2) := by
    rw [Nat.zero_add, List.zipIdx_eq_map_add]
  rw [select_eq, select_eq, select_eq, List.zipIdx_append, List.filter_append, List.map_append,
    moved, List.filter_map, List.map_map, List.map_map]
  rfl

theorem events_keepLogged (f : Filter) (o : Options) (records : List Record) :
    (f.keepLogged o records).events = records.flatMap fun r => (f.run o r 1).events := by
  rw [keepLogged, verdicts_eq]
  exact List.append_nil _

theorem events_selectLogged (f : Filter) (o : Options) (records : List Record) :
    (f.selectLogged o records).events = (records.flatMap fun r => (f.run o r 1).events) ++
      [.filtered records.length (f.select o records).length] := by
  have chosen : positions (f.verdicts o records).value = f.select o records := rfl
  rw [← chosen, selectLogged, verdicts_eq]
  rfl

/-- Evaluation logs on the finest level only. -/
theorem level_of_mem_events_run {r : Record} {event : Event} (h : event ∈ (f.run o r 1).events) :
    event.level = .trace := by
  obtain ⟨x, ended, logged⟩ := exists_ended_of_mem_events h
  have root : ∀ n, o.maxDepth = some n → 1 ≤ n.toNat + 1 := fun n _ => Nat.le_add_left 1 _
  rcases ended_cases root ended with ⟨n, _, rfl⟩ | ⟨l, rfl⟩ | ⟨reason, rfl⟩
  · cases List.mem_singleton.mp logged
    rfl
  · rcases Leaf.mem_events_run logged with ⟨actual, rfl⟩ | ⟨fieldValid, literalValid, rfl⟩ <;> rfl
  · cases List.mem_singleton.mp logged
    rfl

/-- **Choosing the records that match.** The chosen positions are those of the records that match,
every one once and in increasing order, and the records kept are the ones that stand there. Messages
are chosen under the default options. From one list after another is chosen what is chosen from each
of the two. The log is that of evaluating every record once, one after the other, and where positions
are chosen it ends with one event on the debug level, which counts the records and those chosen. -/
theorem records_chosen_in_order (f : Filter) (o : Options) (records : List Record) :
    (∀ index, index ∈ f.select o records ↔
      ∃ r, records[index]? = some r ∧ f.accepts o r = true) ∧
    (f.select o records).Pairwise (· < ·) ∧
    (f.select o records).map (records[·]?) = (f.keep o records).map some ∧
    f.selectMessages records = f.select .default records ∧
    (∀ more, f.keep o (records ++ more) = f.keep o records ++ f.keep o more ∧
      f.select o (records ++ more) =
        f.select o records ++ (f.select o more).map (records.length + ·)) ∧
    (f.keepLogged o records).events = (records.flatMap fun r => (f.run o r 1).events) ∧
    (f.selectLogged o records).events = (records.flatMap fun r => (f.run o r 1).events) ++
      [.filtered records.length (f.select o records).length] ∧
    (f.selectLogged o records).events.filter (fun event => event.level = .debug) =
      [.filtered records.length (f.select o records).length] := by
  refine ⟨fun _ => mem_select_iff, pairwise_lt_select, map_getElem?_select, rfl,
    fun more => ⟨keep_append f o records more, select_append f o records more⟩,
    events_keepLogged f o records, events_selectLogged f o records, ?_⟩
  have silent : (records.flatMap fun r => (f.run o r 1).events).filter
      (fun event => event.level = .debug) = [] := by
    rw [List.filter_eq_nil_iff]
    intro event logged
    obtain ⟨r, _, logged⟩ := List.mem_flatMap.mp logged
    rw [level_of_mem_events_run logged]
    decide
  rw [events_selectLogged, List.filter_append, silent]
  rfl

end Sieve.Filter
