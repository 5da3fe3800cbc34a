import DocAudit.Proofs.Edit.Effect
import DocAudit.Proofs.KeyPath.RoundTrip
import DocAudit.Proofs.ReplayOrder
import Mathlib.Data.String.Basic

/- The entries of a batch are set in the order of their written paths, and these may overlap. If the
   paths are written in their canonical form, the text of a path is the beginning of the text of every
   path below it, so it comes earlier; then no entry is overwritten by a later one from above, and of
   all the paths of the batch only those that lie above another one may read differently in the end
   from what was set. -/
namespace DocAudit

namespace KeyPath

/-- A written path that is the canonical form of what it reads as. -/
def CanonicalText (written : String) : Prop := (parse written).map render = .ok written

theorem render_of_canonical {written : String} {path : KeyPath} (canonical : CanonicalText written)
    (parsed : parse written = .ok path) : path.render = written := by
  rw [CanonicalText, parsed] at canonical
  exact Except.ok.inj canonical

theorem chars_below {above : KeyPath} (some_component : above ≠ []) (rest : KeyPath) :
    chars (above ++ rest) = chars above ++ rest.flatMap Component.chars := by
  cases above with
  | nil => exact absurd rfl some_component
  | cons first later => simp only [List.cons_append, chars, List.flatMap_append, List.append_assoc]

theorem component_written (component : Component) : component.chars ≠ [] := by
  cases component <;> simp [Component.chars]

theorem render_before_below {above rest : KeyPath} (some_component : above ≠ [])
    (further : rest ≠ []) : compare above.render (above ++ rest).render = .lt := by
  obtain ⟨component, later, rfl⟩ := List.exists_cons_of_ne_nil further
  obtain ⟨c, chars, written⟩ := List.exists_cons_of_ne_nil (component_written component)
  have longer : above.chars < (above ++ component :: later).chars := by
    rw [chars_below some_component, List.flatMap_cons, written]
    calc
      above.chars = above.chars ++ [] := (List.append_nil _).symm
      _ < above.chars ++ (c :: chars ++ later.flatMap Component.chars) :=
        List.append_left_lt (List.nil_lt_cons _ _)
  refine compareOfLessAndEq_eq_lt.mpr (String.lt_iff_toList_lt.mpr ?_)
  rwa [render, render, String.toList_ofList, String.toList_ofList]

theorem later_not_above {written other : String} {path next : KeyPath}
    (canonical : CanonicalText written) (other_canonical : CanonicalText other)
    (ascending : compare written other = .lt) (parsed : parse written = .ok path)
    (other_parsed : parse other = .ok next) : ¬ next <+: path := by
  rintro ⟨rest, below⟩
  have text := render_of_canonical canonical parsed
  have other_text := render_of_canonical other_canonical other_parsed
  rw [← text, ← other_text, ← below] at ascending
  -- the same path has the same text, and one further down comes later, not earlier
  by_cases further : rest = []
  · rw [further, List.append_nil, Std.ReflOrd.compare_self] at ascending
    cases ascending
  · have descending := render_before_below (parsed_writable other_parsed).1 further
    rw [Std.OrientedCmp.gt_of_lt descending] at ascending
    cases ascending

end KeyPath

namespace Replay
variable {loader : BlobLoader} {body after value : Node} {path : KeyPath}

theorem run_set_cons (entry : String × Node) (rest : List (String × Node)) :
    runFresh loader body (setAll (entry :: rest)) = .ok after ↔
      ∃ next between, KeyPath.parse entry.1 = .ok next ∧
        body.write next entry.2 = (between, .ok ()) ∧
        runFresh loader between (setAll rest) = .ok after := by
  rw [setAll, List.map_cons, run_cons]
  constructor
  · rintro ⟨between, stepped, done⟩
    obtain ⟨next, parsed, written⟩ := step_set_ok.mp stepped
    exact ⟨next, between, parsed, written, done⟩
  · rintro ⟨next, between, parsed, written, done⟩
    exact ⟨between, step_set_ok.mpr ⟨next, parsed, written⟩, done⟩

theorem run_keeps {entries : List (String × Node)}
    (beside : ∀ entry ∈ entries, ∀ next, KeyPath.parse entry.1 = .ok next →
      KeyPath.Diverge next path)
    (found : body.get? path = some value)
    (done : runFresh loader body (setAll entries) = .ok after) :
    after.get? path = some value := by
  induction entries generalizing body with
  | nil =>
    cases done
    exact found
  | cons entry rest ih =>
    obtain ⟨first_beside, rest_beside⟩ := List.forall_mem_cons.mp beside
    obtain ⟨next, between, parsed, written, later⟩ := (run_set_cons entry rest).mp done
    have kept := (Node.write_effect written).kept path value (first_beside next parsed) found
    exact ih rest_beside kept later

theorem run_sets {before later : List (String × Node)} {written : String}
    (parsed : KeyPath.parse written = .ok path)
    (beside : ∀ entry ∈ later, ∀ next, KeyPath.parse entry.1 = .ok next →
      KeyPath.Diverge next path)
    (done : runFresh loader body (setAll (before ++ (written, value) :: later)) = .ok after) :
    after.get? path = some value := by
  rw [setAll, List.map_append, run_append] at done
  obtain ⟨reached, -, rest⟩ := done
  obtain ⟨again, between, reparsed, set, rest⟩ := (run_set_cons (written, value) later).mp rest
  cases parsed.symm.trans reparsed
  have read := (Node.write_effect set).below []
  rw [List.append_nil] at read
  exact run_keeps beside read rest

end Replay

/-- The last batch of a change that neither removes anything nor puts blobs in place. After a replay
    every path of the batch that does not lie above another one of it reads as the value that the
    batch sets, if the paths are written in their canonical form. -/
theorem last_batch_read_back {change : Change} {batch : Table String Node}
    (last : change.updates.getLast? = some batch) (no_removals : change.removals = [])
    (no_blobs : change.blobs.entries = [])
    (canonical : ∀ entry ∈ batch.entries, KeyPath.CanonicalText entry.1)
    {cache : PathCache} (sound : cache.Sound) {loader : BlobLoader} {body after : Node}
    (applied : (change.apply loader cache body).1 = .ok after)
    {written : String} {path : KeyPath} {value : Node} (member : (written, value) ∈ batch.entries)
    (parsed : KeyPath.parse written = .ok path)
    (not_above : ∀ entry ∈ batch.entries, ∀ other, KeyPath.parse entry.1 = .ok other →
      path <+: other → other = path) :
    after.get? path = some value := by
  obtain ⟨earlier, updates⟩ := List.getLast?_eq_some_iff.mp last
  obtain ⟨before, later, split⟩ := List.mem_iff_append.mp member
  rw [Change.apply, (Replay.run_fresh sound loader body _).1, ← steps_over_own, updates] at applied
  simp only [Change.stepsOver, no_removals, no_blobs, List.map_append, List.map_cons, List.map_nil,
    List.flatMap_append, List.flatMap_cons, List.flatMap_nil, List.append_nil,
    Replay.run_append] at applied
  -- whatever the earlier batches made of the body, the last one was set in it without a fault
  obtain ⟨reached, -, done⟩ := applied
  rw [split] at done
  refine Replay.run_sets parsed (fun entry entry_member next next_parsed => ?_) done
  have ascending := batch.ascending
  rw [split] at ascending
  have order := (List.pairwise_cons.mp (List.pairwise_append.mp ascending).2.1).1 entry entry_member
  have next_member : entry ∈ batch.entries := by simp [split, entry_member]
  have not_up := KeyPath.later_not_above (canonical _ member) (canonical entry next_member) order
    parsed next_parsed
  refine ⟨not_up, fun down => not_up ?_⟩
  obtain rfl := not_above entry next_member next next_parsed down
  exact List.prefix_rfl

/-- A path, one below it, and a path that stands between the two in the order of the texts. -/
def overlappingChange : Change :=
  (((Change.new .update "c" "d").set "a.b" (.string "x")).set "a" (.dictionary [("c", .null)])).set
    "a!" (.boolean true)

theorem set_below_a_new_value :
    (overlappingChange.apply BlobLoader.none .empty (.dictionary [("a", .null)])).1 =
      .ok (.dictionary [("a", .dictionary [("b", .string "x"), ("c", .null)]),
        ("a!", .boolean true)]) ∧
    (Node.dictionary [("a", .dictionary [("b", .string "x"), ("c", .null)]),
      ("a!", .boolean true)]).get? [.property "a", .property "b"] = some (.string "x") := by
  have applied : (overlappingChange.apply BlobLoader.none .empty
      (.dictionary [("a", .null)])).1 =
    .ok (.dictionary [("a", .dictionary [("b", .string "x"), ("c", .null)]),
      ("a!", .boolean true)]) := rfl
  obtain ⟨batch, last⟩ : ∃ batch, overlappingChange.updates.getLast? = some batch := ⟨_, rfl⟩
  have entries : batch.entries = [("a", .dictionary [("c", .null)]), ("a!", .boolean true),
      ("a.b", .string "x")] := by
    cases last
    rfl
  have canonical : ∀ entry ∈ batch.entries, KeyPath.CanonicalText entry.1 := by
    rw [entries]
    exact List.forall_mem_cons.mpr ⟨rfl, List.forall_mem_cons.mpr
      ⟨rfl, List.forall_mem_singleton.mpr rfl⟩⟩
  have member : ("a.b", Node.string "x") ∈ batch.entries := by
    rw [entries]
    exact .tail _ (.tail _ (.head _))
  refine ⟨applied, last_batch_read_back last rfl rfl canonical PathCache.empty_sound applied
    member rfl ?_⟩
  rw [entries]
  refine List.forall_mem_cons.mpr ⟨?_, List.forall_mem_cons.mpr
    ⟨?_, List.forall_mem_singleton.mpr ?_⟩⟩ <;> rintro _ ⟨⟩ below
  · revert below
    decide
  · revert below
    decide
  · rfl

end DocAudit
