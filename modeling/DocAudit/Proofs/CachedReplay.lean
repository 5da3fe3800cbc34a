import DocAudit.Replay

/- A replay reads its paths through a cache. `PathCache.Sound` says that a cache holds nothing but
   what a fresh reading of the same text gives; the empty cache is sound and every step of a replay
   keeps it so. A replay from a sound cache therefore has the outcome of the replay that reads each
   path anew, whatever was read before. -/
namespace DocAudit

def PathCache.Sound (cache : PathCache) : Prop :=
  ∀ written path, cache.paths.find? written = some path → KeyPath.parse written = .ok path

namespace PathCache

theorem empty_sound : PathCache.empty.Sound := by
  intro written path found
  simp [PathCache.empty, Table.find_empty] at found

theorem path_read {cache : PathCache} (sound : cache.Sound) (written : String) :
    (cache.path written).1 = KeyPath.parse written := by
  unfold PathCache.path
  cases found : cache.paths.find? written with
  | some path => exact (sound written path found).symm
  | none => cases KeyPath.parse written <;> rfl

theorem path_keeps_sound {cache : PathCache} (sound : cache.Sound) (written : String) :
    (cache.path written).2.Sound := by
  unfold PathCache.path
  cases found : cache.paths.find? written with
  | some path => exact sound
  | none =>
    cases parsed : KeyPath.parse written with
    | error error => exact sound
    | ok path =>
      intro probe other kept
      rw [Table.find_after_insert] at kept
      split at kept
      next same =>
        cases kept
        rw [same, parsed]
      next => exact sound probe other kept

end PathCache

namespace Replay

def editFresh {α : Type} (path : String) (edit : KeyPath → Node × Except EditError α) :
    Except AuditError Node :=
  match KeyPath.parse path with
  | .error error => .error (.invalidPath error)
  | .ok path =>
    match edit path with
    | (body, .ok _) => .ok body
    | (_, .error error) => .error (.edit error)

def stepFresh (loader : BlobLoader) (body : Node) : ReplayStep → Except AuditError Node
  | .set path value => editFresh path fun path => body.write path value
  | .remove path => editFresh path body.remove
  | .putBlob path reference =>
    match loader reference with
    | .error error => .error error
    | .ok blob => editFresh path fun path => body.write path (.blob blob)

def runFresh (loader : BlobLoader) (body : Node) : List ReplayStep → Except AuditError Node
  | [] => .ok body
  | first :: rest =>
    match stepFresh loader body first with
    | .ok body => runFresh loader body rest
    | .error error => .error error

theorem step_put_blob (loader : BlobLoader) (body : Node) (written reference : String) :
    stepFresh loader body (.putBlob written reference) =
      (loader reference).bind fun blob => stepFresh loader body (.set written (.blob blob)) := by
  simp only [stepFresh]
  cases loader reference <;> rfl

theorem step_put_blob_ok {loader : BlobLoader} {body after : Node} {written reference : String} :
    stepFresh loader body (.putBlob written reference) = .ok after ↔
      ∃ blob, loader reference = .ok blob ∧
        stepFresh loader body (.set written (.blob blob)) = .ok after := by
  rw [step_put_blob]
  cases loader reference <;> simp [Except.bind]

theorem run_cons {loader : BlobLoader} {body after : Node} {first : ReplayStep}
    {rest : List ReplayStep} :
    runFresh loader body (first :: rest) = .ok after ↔
      ∃ between, stepFresh loader body first = .ok between ∧
        runFresh loader between rest = .ok after := by
  rw [runFresh]
  cases stepFresh loader body first <;> simp

variable {cache : PathCache}

def editAt {α : Type} (cache : PathCache) (path : String)
    (edit : KeyPath → Node × Except EditError α) : Except AuditError Node × PathCache :=
  match cache.path path with
  | (.error error, cache) => (.error (.invalidPath error), cache)
  | (.ok path, cache) =>
    match edit path with
    | (body, .ok _) => (.ok body, cache)
    | (_, .error error) => (.error (.edit error), cache)

theorem write_at_edits (cache : PathCache) (body : Node) (path : String) (value : Node) :
    writeAt cache body path value = editAt cache path fun path => body.write path value := by
  unfold writeAt editAt
  rcases cache.path path with ⟨_ | parsed, next⟩
  · rfl
  · dsimp only
    rcases body.write parsed value with ⟨after, _ | _⟩ <;> rfl

theorem remove_at_edits (cache : PathCache) (body : Node) (path : String) :
    removeAt cache body path = editAt cache path body.remove := by
  unfold removeAt editAt
  rcases cache.path path with ⟨_ | parsed, next⟩
  · rfl
  · dsimp only
    rcases body.remove parsed with ⟨after, _ | _⟩ <;> rfl

theorem edit_at_fresh {α : Type} (sound : cache.Sound) (path : String)
    (edit : KeyPath → Node × Except EditError α) :
    (editAt cache path edit).1 = editFresh path edit ∧ (editAt cache path edit).2.Sound := by
  have read := PathCache.path_read sound path
  have kept := PathCache.path_keeps_sound sound path
  unfold editAt editFresh
  rw [← read]
  rcases taken : cache.path path with ⟨_ | parsed, next⟩
  · rw [taken] at kept
    exact ⟨rfl, kept⟩
  · rw [taken] at kept
    dsimp only
    rcases edit parsed with ⟨after, _ | _⟩ <;> exact ⟨rfl, kept⟩

theorem step_fresh (sound : cache.Sound) (loader : BlobLoader) (body : Node) (first : ReplayStep) :
    (step loader cache body first).1 = stepFresh loader body first ∧
      (step loader cache body first).2.Sound := by
  cases first with
  | set path value =>
    rw [step, write_at_edits]
    exact edit_at_fresh sound path fun path => body.write path value
  | remove path =>
    rw [step, remove_at_edits]
    exact edit_at_fresh sound path body.remove
  | putBlob path reference =>
    simp only [step, stepFresh]
    cases loader reference with
    | error error => exact ⟨rfl, sound⟩
    | ok blob =>
      dsimp only
      rw [write_at_edits]
      exact edit_at_fresh sound path fun path => body.write path (.blob blob)

theorem run_fresh (sound : cache.Sound) (loader : BlobLoader) (body : Node)
    (steps : List ReplayStep) :
    (run loader cache body steps).1 = runFresh loader body steps ∧
      (run loader cache body steps).2.Sound := by
  induction steps generalizing cache body with
  | nil => exact ⟨rfl, sound⟩
  | cons first rest ih =>
    obtain ⟨outcome, kept⟩ := step_fresh sound loader body first
    simp only [run, runFresh]
    rw [← outcome]
    rcases taken : step loader cache body first with ⟨_ | after, next⟩
    · rw [taken] at kept
      exact ⟨rfl, kept⟩
    · rw [taken] at kept
      exact ih kept after

end Replay

theorem apply_from_sound {cache : PathCache} (sound : cache.Sound) (change : Change)
    (loader : BlobLoader) (body : Node) :
    (change.apply loader cache body).1 = (change.apply loader .empty body).1 ∧
      (change.apply loader cache body).2.Sound := by
  obtain ⟨outcome, kept⟩ := Replay.run_fresh sound loader body change.steps
  have fresh := (Replay.run_fresh PathCache.empty_sound loader body change.steps).1
  exact ⟨outcome.trans fresh.symm, kept⟩

end DocAudit
