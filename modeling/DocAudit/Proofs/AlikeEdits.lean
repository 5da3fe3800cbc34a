import DocAudit.Proofs.AlikeTrees
import DocAudit.Proofs.Edit.Invariance

/- The same edit of two trees that are alike leaves alike trees behind, and if it is refused in one
   of them it is refused in the other for the same reason. An edit sees of a node its kind, its
   length if it is an array, and which of its places are vacant; in all this alike nodes agree. -/
namespace DocAudit
namespace Comparison
open Node
variable {a b x y : Node} {component : Component}

theorem Alike.vacant_iff (alike : Alike a b) (component : Component) :
    Vacant a component ↔ Vacant b component := by
  have missing := alike.missing_iff component
  unfold Vacant
  refine or_congr missing (and_congr_right fun _ => ?_)
  cases found : a.get? [component] with
  | none => simp [missing.mp found]
  | some x =>
    obtain ⟨y, other⟩ : ∃ y, b.get? [component] = some y := by
      rw [← Option.ne_none_iff_exists', ne_eq, ← missing, found]
      simp
    rw [other, Option.some.injEq, Option.some.injEq]
    exact (alike.children found other).null_iff

theorem empty_for_alike (path : KeyPath) : Alike (emptyFor path) (emptyFor path) := by
  refine ⟨empty_for_ordered path, empty_for_ordered path, ?_⟩
  rcases path with _ | ⟨_ | _, _⟩ <;> rfl

theorem Alike.child_for (alike : Alike a b) (fits : a.kind = component.container)
    (nonnegative : component.NonNegative) (rest : KeyPath) :
    Alike (a.childFor component rest) (b.childFor component rest) := by
  have other_fits : b.kind = component.container := alike.kinds.symm.trans fits
  by_cases vacant : Vacant a component
  · have other_vacant := (alike.vacant_iff component).mp vacant
    rw [child_for_vacant fits nonnegative vacant,
      child_for_vacant other_fits nonnegative other_vacant]
    exact empty_for_alike rest
  · have other_taken := (alike.vacant_iff component).not.mp vacant
    obtain ⟨x, found⟩ := taken_child vacant
    obtain ⟨y, other⟩ := taken_child other_taken
    rw [child_for_taken found vacant, child_for_taken other other_taken]
    exact alike.children found other

theorem alike_of_parts (ordered : a.Ordered) (other_ordered : b.Ordered) (lockstep : Lockstep a b)
    (parts : ∀ component, Matching (a.get? [component]) (b.get? [component])) : Alike a b := by
  refine ⟨ordered, other_ordered, (alike_iff ordered other_ordered).mpr ⟨?_, parts⟩⟩
  rw [← diverges_root_iff]
  exact lockstep_agrees lockstep

theorem lockstep_with_child (lockstep : Lockstep a b) (component : Component) (x y : Node) :
    Lockstep (a.withChild component x) (b.withChild component y) := by
  cases lockstep with
  | dictionaries es as => cases component <;> exact .dictionaries _ _
  | arrays es as same_length =>
    cases component with
    | property key => exact .arrays es as same_length
    | index i =>
      refine .arrays _ _ ?_
      rw [set_element_length, set_element_length, same_length]

theorem filled_lockstep (lockstep : Lockstep a b) (component other : Component) :
    Filled a component other ↔ Filled b component other := by
  cases lockstep with
  | dictionaries => simp [Filled]
  | arrays es as same_length => simp [Filled, same_length]

theorem Alike.with_child (alike : Alike a b) (fits : a.kind = component.container)
    (nonnegative : component.NonNegative) (children : Alike x y) :
    Alike (a.withChild component x) (b.withChild component y) := by
  have other_fits : b.kind = component.container := alike.kinds.symm.trans fits
  have lockstep := alike.lockstep fits
  refine alike_of_parts (ordered_with_child component alike.ordered children.ordered)
    (ordered_with_child component alike.other_ordered children.other_ordered)
    (lockstep_with_child lockstep component x y) fun other => ?_
  by_cases same : other = component
  · subst same
    rw [get_child fits nonnegative, get_child other_fits nonnegative]
    exact children.nothing
  · by_cases filled : Filled a component other
    · rw [get_filled filled, get_filled ((filled_lockstep lockstep component other).mp filled)]
      rfl
    · have other_unfilled := (filled_lockstep lockstep component other).not.mp filled
      rw [get_beside fits nonnegative same filled,
        get_beside other_fits nonnegative same other_unfilled]
      exact alike.matching other

theorem lockstep_without_child (lockstep : Lockstep a b) (component : Component) :
    Lockstep (a.withoutChild component) (b.withoutChild component) := by
  cases lockstep with
  | dictionaries es as => cases component <;> exact .dictionaries _ _
  | arrays es as same_length =>
    cases component with
    | property key => exact .arrays es as same_length
    | index i =>
      refine .arrays _ _ ?_
      rw [List.length_eraseIdx, List.length_eraseIdx, same_length]

theorem Alike.without_child (alike : Alike a b) (fits : a.kind = component.container)
    (nonnegative : component.NonNegative) :
    Alike (a.withoutChild component) (b.withoutChild component) := by
  have other_fits : b.kind = component.container := alike.kinds.symm.trans fits
  refine alike_of_parts (ordered_without_child component alike.ordered)
    (ordered_without_child component alike.other_ordered)
    (lockstep_without_child (alike.lockstep fits) component) fun other => ?_
  rw [get_without_child fits nonnegative, get_without_child other_fits nonnegative]
  cases component.formerly other with
  | none => trivial
  | some origin => exact alike.matching origin

section path
variable {path : KeyPath}

theorem place_alike (nonnegative : ∀ component ∈ path, component.NonNegative)
    (alike : Alike a b) (values : Alike x y) :
    Alike (place a path x).1 (place b path y).1 ∧ (place a path x).2 = (place b path y).2 := by
  induction path generalizing a b with
  | nil => exact ⟨values, rfl⟩
  | cons component rest ih =>
    obtain ⟨counted, rest_counted⟩ := List.forall_mem_cons.mp nonnegative
    by_cases fits : a.kind = component.container
    · have other_fits : b.kind = component.container := alike.kinds.symm.trans fits
      obtain ⟨trees, outcomes⟩ := ih rest_counted (alike.child_for fits counted rest)
      rw [place_fits fits, place_fits other_fits]
      exact ⟨alike.with_child fits counted trees, outcomes⟩
    · have other_unfit : b.kind ≠ component.container := alike.kinds ▸ fits
      rw [place_unfit fits, place_unfit other_unfit, alike.kinds]
      exact ⟨alike, rfl⟩

theorem withdraw_alike (nonnegative : ∀ component ∈ path, component.NonNegative)
    (alike : Alike a b) : Alike (withdraw a path).1 (withdraw b path).1 := by
  induction path generalizing a b with
  | nil => exact empty_for_alike []
  | cons component rest ih =>
    obtain ⟨counted, rest_counted⟩ := List.forall_mem_cons.mp nonnegative
    by_cases fits : a.kind = component.container
    case neg =>
      have other_unfit : b.kind ≠ component.container := alike.kinds ▸ fits
      rw [withdraw_unfit fits, withdraw_unfit other_unfit]
      exact alike
    have other_fits : b.kind = component.container := alike.kinds.symm.trans fits
    cases rest with
    | nil =>
      rw [withdraw_last_tree fits, withdraw_last_tree other_fits]
      exact alike.without_child fits counted
    | cons next rest =>
      by_cases vacant : Vacant a component
      · have other_vacant := (alike.vacant_iff component).mp vacant
        rw [withdraw_vacant fits counted vacant,
          withdraw_vacant other_fits counted other_vacant]
        exact alike
      · have other_taken := (alike.vacant_iff component).not.mp vacant
        obtain ⟨x, found⟩ := taken_child vacant
        obtain ⟨y, other⟩ := taken_child other_taken
        rw [withdraw_taken found vacant, withdraw_taken other other_taken]
        exact alike.with_child fits counted (ih rest_counted (alike.children found other))

end path

theorem write_alike (alike : Alike a b) (path : KeyPath) (values : Alike x y) :
    Alike (a.write path x).1 (b.write path y).1 ∧ (a.write path x).2 = (b.write path y).2 := by
  rw [write_eq, write_eq]
  cases checked : checkPath path with
  | error fault => exact ⟨alike, rfl⟩
  | ok passed =>
    obtain ⟨trees, outcomes⟩ := place_alike (checked_nonnegative checked) alike values
    exact ⟨trees, congrArg (outcomeAt path) outcomes⟩

theorem remove_alike (alike : Alike a b) (path : KeyPath) :
    Alike (a.remove path).1 (b.remove path).1 ∧
      ∀ error, (a.remove path).2 = .error error ↔ (b.remove path).2 = .error error := by
  constructor
  · unfold Node.remove
    cases checked : checkPath path with
    | error fault => exact alike
    | ok passed => exact withdraw_alike (checked_nonnegative checked) alike
  · intro error
    have same : (a.write path .null).2 = (b.write path .null).2 :=
      (write_alike alike path (empty_for_alike [])).2
    rw [remove_refused_iff a path .null, remove_refused_iff b path .null, same]

end Comparison
end DocAudit
