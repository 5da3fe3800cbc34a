import DocAudit.Proofs.AlikeEdits
import DocAudit.Proofs.CachedReplay

/- A replay cannot tell bodies apart that the comparison cannot tell apart. If what a change writes
   is alike to itself, each of its steps takes alike bodies to alike bodies or is refused in both
   with the same error, and so does the whole replay. -/
namespace DocAudit
open Comparison (Alike write_alike remove_alike)

inductive AlikeOutcomes : Except AuditError Node → Except AuditError Node → Prop
  | done {a b : Node} (alike : Alike a b) : AlikeOutcomes (.ok a) (.ok b)
  | refused (error : AuditError) : AlikeOutcomes (.error error) (.error error)

def ReplayStep.WritesAlike (loader : BlobLoader) : ReplayStep → Prop
  | .set _ value => Alike value value
  | .remove _ => True
  | .putBlob _ reference =>
    ∀ blob, loader reference = .ok blob → Comparison.compare (.blob blob) (.blob blob) = none

namespace Replay
variable {a b : Node}

theorem edit_fresh_alike {α : Type} (path : String)
    {edit other : KeyPath → Node × Except EditError α}
    (trees : ∀ path, Alike (edit path).1 (other path).1)
    (faults : ∀ path error, (edit path).2 = .error error ↔ (other path).2 = .error error) :
    AlikeOutcomes (editFresh path edit) (editFresh path other) := by
  unfold editFresh
  cases KeyPath.parse path with
  | error error => exact .refused _
  | ok path =>
    have alike := trees path
    have fault := faults path
    dsimp only
    generalize edit path = left at alike fault
    generalize other path = right at alike fault
    obtain ⟨tree, outcome⟩ := left
    obtain ⟨other_tree, other_outcome⟩ := right
    cases outcome with
    | error error =>
      cases (fault error).mp rfl
      exact .refused _
    | ok done =>
      cases other_outcome with
      | error error => cases (fault error).mpr rfl
      | ok other_done => exact .done alike

theorem write_fresh_alike (alike : Alike a b) (path : String) {value : Node}
    (value_alike : Alike value value) :
    AlikeOutcomes (editFresh path fun path => a.write path value)
      (editFresh path fun path => b.write path value) := by
  refine edit_fresh_alike path (fun path => (write_alike alike path value_alike).1) ?_
  intro path error
  rw [(write_alike alike path value_alike).2]

theorem step_alike (alike : Alike a b) {loader : BlobLoader} {step : ReplayStep}
    (writes : step.WritesAlike loader) :
    AlikeOutcomes (stepFresh loader a step) (stepFresh loader b step) := by
  cases step with
  | set path value => exact write_fresh_alike alike path writes
  | remove path =>
    exact edit_fresh_alike path (fun path => (remove_alike alike path).1)
      fun path => (remove_alike alike path).2
  | putBlob path reference =>
    rw [step_put_blob, step_put_blob]
    cases loaded : loader reference with
    | error error => exact .refused error
    | ok blob => exact write_fresh_alike alike path ⟨trivial, trivial, writes blob loaded⟩

theorem run_alike (alike : Alike a b) {loader : BlobLoader} {steps : List ReplayStep}
    (writes : ∀ step ∈ steps, step.WritesAlike loader) :
    AlikeOutcomes (runFresh loader a steps) (runFresh loader b steps) := by
  induction steps generalizing a b with
  | nil => exact .done alike
  | cons first rest ih =>
    obtain ⟨first_writes, rest_writes⟩ := List.forall_mem_cons.mp writes
    have outcomes := step_alike alike first_writes
    simp only [runFresh]
    generalize stepFresh loader a first = outcome at outcomes
    generalize stepFresh loader b first = other at outcomes
    cases outcomes with
    | done alike => exact ih alike rest_writes
    | refused error => exact .refused error

end Replay

theorem change_writes_alike {change : Change} {loader : BlobLoader}
    (values : ∀ batch ∈ change.updates, ∀ entry ∈ batch.entries,
      entry.2.Ordered ∧ Comparison.compare entry.2 entry.2 = none)
    (blobs : ∀ entry ∈ change.blobs.entries, ∀ blob, loader entry.2 = .ok blob →
      Comparison.compare (.blob blob) (.blob blob) = none) :
    ∀ step ∈ change.steps, step.WritesAlike loader := by
  intro step member
  simp only [Change.steps, List.mem_append, List.mem_flatMap, List.mem_map] at member
  rcases member with (⟨batch, batch_member, entry, entry_member, rfl⟩ | ⟨path, -, rfl⟩) |
    ⟨entry, entry_member, rfl⟩
  · obtain ⟨ordered, nothing⟩ := values batch batch_member entry entry_member
    exact ⟨ordered, ordered, nothing⟩
  · trivial
  · exact blobs entry entry_member

/-- If the comparison finds nothing between two bodies, and nothing between a value or a blob that a
    change writes and itself, then the replay of the change fails on one body exactly if it fails
    on the other, with the same error; and if it succeeds on both, the comparison finds nothing
    between the results. The paths may have been read through different caches. -/
theorem replay_respects_comparison {a b : Node} (ordered : a.Ordered) (other_ordered : b.Ordered)
    (nothing : Comparison.compare a b = none) {change : Change} {loader : BlobLoader}
    (values : ∀ batch ∈ change.updates, ∀ entry ∈ batch.entries,
      entry.2.Ordered ∧ Comparison.compare entry.2 entry.2 = none)
    (blobs : ∀ entry ∈ change.blobs.entries, ∀ blob, loader entry.2 = .ok blob →
      Comparison.compare (.blob blob) (.blob blob) = none)
    {cache other_cache : PathCache} (sound : cache.Sound) (other_sound : other_cache.Sound) :
    (∀ error, (change.apply loader cache a).1 = .error error ↔
      (change.apply loader other_cache b).1 = .error error) ∧
    ∀ after other_after, (change.apply loader cache a).1 = .ok after →
      (change.apply loader other_cache b).1 = .ok other_after →
      Comparison.compare after other_after = none := by
  have outcomes := Replay.run_alike ⟨ordered, other_ordered, nothing⟩
    (change_writes_alike values blobs)
  rw [← (Replay.run_fresh sound loader a _).1,
    ← (Replay.run_fresh other_sound loader b _).1] at outcomes
  unfold Change.apply
  generalize (Replay.run loader cache a change.steps).1 = outcome at outcomes
  generalize (Replay.run loader other_cache b change.steps).1 = other at outcomes
  cases outcomes with
  | done alike =>
    refine ⟨by simp, ?_⟩
    intro after other_after done other_done
    cases done
    cases other_done
    exact alike.nothing
  | refused error =>
    refine ⟨fun _ => Iff.rfl, ?_⟩
    intro after other_after done
    cases done

theorem replay_beside_equal_numbers :
    Comparison.compare (.dictionary [("list", .array [.boolean true, .null]),
        ("n", .number (.integer 1))])
      (.dictionary [("list", .array [.boolean true, .null]),
        ("n", .number (.float ⟨false, 1023, 0⟩))]) = none ∧
    ((((Change.new .update "c" "d").set "list[1].x" .null).remove "list[0]").apply
        BlobLoader.none .empty (.dictionary [("list", .array [.boolean true, .null]),
          ("n", .number (.integer 1))])).1 =
      .ok (.dictionary [("list", .array [.dictionary [("x", .null)]]),
        ("n", .number (.integer 1))]) ∧
    ((((Change.new .update "c" "d").set "list[1].x" .null).remove "list[0]").apply
        BlobLoader.none .empty (.dictionary [("list", .array [.boolean true, .null]),
          ("n", .number (.float ⟨false, 1023, 0⟩))])).1 =
      .ok (.dictionary [("list", .array [.dictionary [("x", .null)]]),
        ("n", .number (.float ⟨false, 1023, 0⟩))]) ∧
    Comparison.compare (.dictionary [("list", .array [.dictionary [("x", .null)]]),
        ("n", .number (.integer 1))])
      (.dictionary [("list", .array [.dictionary [("x", .null)]]),
        ("n", .number (.float ⟨false, 1023, 0⟩))]) = none := by
  refine ⟨?alike, ?left, ?right, (replay_respects_comparison ?ordered ?other_ordered ?alike ?values
    ?blobs PathCache.empty_sound PathCache.empty_sound).2 _ _ ?left ?right⟩
  case alike => rfl
  case left => rfl
  case right => rfl
  case ordered =>
    simp [Node.Ordered, Node.OrderedEntries, Node.OrderedItems, Entries.Ascending]
    decide
  case other_ordered =>
    simp [Node.Ordered, Node.OrderedEntries, Node.OrderedItems, Entries.Ascending]
    decide
  case values =>
    intro batch member entry entry_member
    cases List.mem_singleton.mp member
    cases List.mem_singleton.mp entry_member
    exact ⟨trivial, rfl⟩
  case blobs =>
    intro entry member
    cases member

end DocAudit
