import DocAudit.Proofs.CachedReplay
import DocAudit.Proofs.Edit.Invariance

/- A replay of ordered values on an ordered body makes an ordered body, for every step of it is an
   edit that keeps the order of the keys. -/
namespace DocAudit

def Change.Ordered (change : Change) : Prop :=
  ∀ batch ∈ change.updates, ∀ entry ∈ batch.entries, entry.2.Ordered

def ReplayStep.WritesOrdered : ReplayStep → Prop
  | .set _ value => value.Ordered
  | .remove _ => True
  | .putBlob _ _ => True

theorem ordered_steps {change : Change} (ordered : change.Ordered) :
    ∀ step ∈ change.steps, step.WritesOrdered := by
  intro step member
  simp only [Change.steps, List.mem_append, List.mem_flatMap, List.mem_map] at member
  rcases member with (⟨batch, batch_member, entry, entry_member, rfl⟩ | ⟨path, -, rfl⟩) |
    ⟨entry, -, rfl⟩
  · exact ordered batch batch_member entry entry_member
  · trivial
  · trivial

namespace Replay
variable {loader : BlobLoader} {body after : Node}

theorem edit_fresh_done {α : Type} {path : String} {edit : KeyPath → Node × Except EditError α}
    (done : editFresh path edit = .ok after) : ∃ path, (edit path).1 = after := by
  unfold editFresh at done
  cases parsed : KeyPath.parse path with
  | error error => simp [parsed] at done
  | ok path =>
    refine ⟨path, ?_⟩
    simp only [parsed] at done
    generalize edit path = edited at done
    obtain ⟨tree, outcome⟩ := edited
    cases outcome with
    | error error => cases done
    | ok answer => exact Except.ok.inj done

theorem step_ordered {step : ReplayStep} (writes : step.WritesOrdered) (ordered : body.Ordered)
    (done : stepFresh loader body step = .ok after) : after.Ordered := by
  cases step with
  | set path value =>
    obtain ⟨path, rfl⟩ := edit_fresh_done done
    exact Node.write_ordered path ordered writes
  | remove path =>
    obtain ⟨path, rfl⟩ := edit_fresh_done done
    exact Node.remove_ordered path ordered
  | putBlob path reference =>
    obtain ⟨blob, -, set⟩ := step_put_blob_ok.mp done
    obtain ⟨path, rfl⟩ := edit_fresh_done set
    exact Node.write_ordered path ordered trivial

theorem run_ordered {steps : List ReplayStep} (writes : ∀ step ∈ steps, step.WritesOrdered)
    (ordered : body.Ordered) (done : runFresh loader body steps = .ok after) : after.Ordered := by
  induction steps generalizing body with
  | nil =>
    cases done
    exact ordered
  | cons first rest ih =>
    obtain ⟨first_writes, rest_writes⟩ := List.forall_mem_cons.mp writes
    obtain ⟨next, stepped, later⟩ := run_cons.mp done
    exact ih rest_writes (step_ordered first_writes ordered stepped) later

end Replay

theorem apply_ordered {change : Change} {loader : BlobLoader} {cache : PathCache}
    (sound : cache.Sound) {body after : Node} (change_ordered : change.Ordered)
    (ordered : body.Ordered) (done : (change.apply loader cache body).1 = .ok after) :
    after.Ordered := by
  rw [Change.apply, (Replay.run_fresh sound loader body change.steps).1] at done
  exact Replay.run_ordered (ordered_steps change_ordered) ordered done

end DocAudit
