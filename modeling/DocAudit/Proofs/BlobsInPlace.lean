import DocAudit.Proofs.LastBatch
import Mathlib.Data.List.Forall2

/- The blobs of a change are put in place after everything else. To put a blob in place is to load it
   and to set it like any other value, so a replay of blobs succeeds exactly if all of them can be
   loaded and the replay that sets the loaded ones does. In the end every blob stands in its
   place, whatever the change set or removed there before. -/
namespace DocAudit
namespace Replay
variable {loader : BlobLoader} {body after : Node}

theorem put_blob_writes {cache : PathCache} (sound : cache.Sound) {written reference : String} :
    (step loader cache body (.putBlob written reference)).1 = .ok after ↔
      ∃ blob path, loader reference = .ok blob ∧ KeyPath.parse written = .ok path ∧
        body.write path (.blob blob) = (after, .ok ()) := by
  rw [(step_fresh sound loader body _).1, step_put_blob_ok]
  simp only [step_set_ok, ← exists_and_left]

def putAll (blobs : List (String × String)) : List ReplayStep :=
  blobs.map fun entry => .putBlob entry.1 entry.2

def Loads (loader : BlobLoader) (put : String × String) (set : String × Node) : Prop :=
  put.1 = set.1 ∧ ∃ blob, loader put.2 = .ok blob ∧ set.2 = .blob blob

theorem keys_of_loaded {blobs : List (String × String)} {entries : List (String × Node)}
    (loads : List.Forall₂ (Loads loader) blobs entries) :
    Entries.keys blobs = Entries.keys entries := by
  induction loads with
  | nil => rfl
  | cons first rest ih =>
    simp only [Entries.keys, List.map_cons] at ih ⊢
    rw [first.1, ih]

theorem run_put_all {blobs : List (String × String)} :
    runFresh loader body (putAll blobs) = .ok after ↔
      ∃ entries, List.Forall₂ (Loads loader) blobs entries ∧
        runFresh loader body (setAll entries) = .ok after := by
  induction blobs generalizing body with
  | nil => simp [putAll, setAll]
  | cons put rest ih =>
    rw [putAll, List.map_cons, run_cons]
    constructor
    · rintro ⟨between, stepped, done⟩
      obtain ⟨blob, loaded, set⟩ := step_put_blob_ok.mp stepped
      obtain ⟨entries, loads, done⟩ := ih.mp done
      exact ⟨(put.1, .blob blob) :: entries, .cons ⟨rfl, blob, loaded, rfl⟩ loads,
        run_cons.mpr ⟨between, set, done⟩⟩
    · rintro ⟨entries, loads, done⟩
      obtain ⟨set, later, ⟨same, blob, loaded, value⟩, later_loads, rfl⟩ :=
        List.forall₂_cons_left_iff.mp loads
      obtain ⟨between, stepped, rest_done⟩ := run_cons.mp done
      refine ⟨between, step_put_blob_ok.mpr ⟨blob, loaded, ?_⟩,
        ih.mpr ⟨later, later_loads, rest_done⟩⟩
      rw [same, ← value]
      exact stepped

theorem run_puts {before later : List (String × String)} {written reference : String}
    {path : KeyPath} (parsed : KeyPath.parse written = .ok path)
    (beside : ∀ key ∈ Entries.keys later, ∀ next, KeyPath.parse key = .ok next →
      KeyPath.Diverge next path)
    (done : runFresh loader body (putAll (before ++ (written, reference) :: later)) = .ok after) :
    ∃ blob, loader reference = .ok blob ∧ after.get? path = some (.blob blob) := by
  rw [putAll, List.map_append, run_append] at done
  obtain ⟨reached, -, rest⟩ := done
  -- what is put from here on is set, each under its own path
  obtain ⟨entries, loads, set_all⟩ := run_put_all.mp rest
  obtain ⟨⟨key, value⟩, others, ⟨rfl, blob, loaded, rfl⟩, later_loads, rfl⟩ :=
    List.forall₂_cons_left_iff.mp loads
  rw [keys_of_loaded later_loads] at beside
  have set_first : runFresh loader reached (setAll ([] ++ (written, .blob blob) :: others)) =
      .ok after := set_all
  refine ⟨blob, loaded, run_sets parsed (fun entry member => ?_) set_first⟩
  exact beside entry.1 (List.mem_map_of_mem member)

end Replay

/-- After a replay every blob of the change that has no other one above or below it stands in its
    place, as it was loaded. -/
theorem blobs_read_back {change : Change} {cache : PathCache} (sound : cache.Sound)
    {loader : BlobLoader} {body after : Node}
    (applied : (change.apply loader cache body).1 = .ok after) {written reference : String}
    {path : KeyPath} (member : (written, reference) ∈ change.blobs.entries)
    (parsed : KeyPath.parse written = .ok path)
    (beside : ∀ key ∈ change.blobs.keys, key ≠ written → ∀ next, KeyPath.parse key = .ok next →
      KeyPath.Diverge next path) :
    ∃ blob, loader reference = .ok blob ∧ after.get? path = some (.blob blob) := by
  obtain ⟨before, later, split⟩ := List.mem_iff_append.mp member
  rw [Change.apply, (Replay.run_fresh sound loader body _).1, Change.steps,
    Replay.run_append] at applied
  obtain ⟨reached, -, done⟩ := applied
  change Replay.runFresh loader reached (Replay.putAll change.blobs.entries) = .ok after at done
  rw [split] at done
  refine Replay.run_puts parsed (fun key key_later => beside key ?_ ?_) done
  · rw [Table.keys, split, Entries.keys, List.map_append]
    exact List.mem_append_right _ (List.mem_cons_of_mem _ key_later)
  · rintro rfl
    have ascending := (Entries.ascending_iff_keys _).mp change.blobs.ascending
    rw [split, Entries.keys, List.map_append, List.map_cons] at ascending
    have order := (List.pairwise_cons.mp (List.pairwise_append.mp ascending).2.1).1 key key_later
    rw [Std.ReflOrd.compare_self] at order
    cases order

/- A picture takes the place of an earlier one, and another one makes the array that it stands in. -/
example :
    ((((Change.new .update "c" "d").set "pic" .null).putBlob "$.pic" "new").putBlob "more[1]"
      "other" |>.apply (fun reference => .ok (.ofMetadata "image/png" 7 reference)) .empty
      (.dictionary [("pic", .blob (.ofMetadata "image/png" 3 "old"))])).1 =
    .ok (.dictionary
      [("more", .array [.null, .blob (.ofMetadata "image/png" 7 "other")]),
        ("pic", .blob (.ofMetadata "image/png" 7 "new"))]) := rfl

example :
    (((Change.new .update "c" "d").putBlob "a[" "gone").apply BlobLoader.none .empty .null).1 =
      .error (.blobFetchFailed "gone" .noLoader) := rfl

end DocAudit
