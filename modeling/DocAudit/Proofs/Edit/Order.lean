import DocAudit.Proofs.Edit.Descent

/- Two writes that do not overlap commute. Two paths are apart if they first differ in two keys or in
   two indices: then the writes step into the same containers as far as they share their way, create
   the same ones if these are missing, and beyond that leave the place of the other alone. So neither
   write has a part in the outcome of the other, whether it succeeds or fails, and the tree that both
   leave behind does not depend on which comes first. -/
namespace DocAudit

/-- The first components in which the paths differ are of one sort. -/
inductive KeyPath.Apart : KeyPath → KeyPath → Prop
  | here {c d : Component} (differ : c ≠ d) (same_sort : c.SameSort d) (p q : KeyPath) :
      Apart (c :: p) (d :: q)
  | later (c : Component) {p q : KeyPath} (apart : Apart p q) : Apart (c :: p) (c :: q)

theorem KeyPath.Apart.symm {p q : KeyPath} (apart : Apart p q) : Apart q p := by
  induction apart with
  | here differ same_sort p q => exact .here (Ne.symm differ) same_sort.symm q p
  | later c apart ih => exact .later c ih

theorem same_container {c d : Component} (same_sort : c.SameSort d) :
    c.container = d.container := by
  cases c <;> cases d <;> first | rfl | cases same_sort

namespace Node

theorem with_child_comm {node : Node} {c d : Component} (differ : c ≠ d)
    (c_counted : c.NonNegative) (d_counted : d.NonNegative) (x y : Node) :
    (node.withChild c x).withChild d y = (node.withChild d y).withChild c x := by
  cases node <;> cases c <;> cases d <;> try rfl
  case dictionary.property.property entries j k =>
    have other : k ≠ j := fun same => differ (by rw [same])
    simp only [withChild, Entries.insert_comm other]
  case array.index.index items i j =>
    simp only [Component.NonNegative] at c_counted d_counted
    have other : i.toNat ≠ j.toNat := by
      intro same
      exact differ (by rw [show i = j by omega])
    simp only [withChild, set_element_comm other]

theorem with_child_twice (node : Node) (c : Component) (x y : Node) :
    (node.withChild c x).withChild c y = node.withChild c y := by
  cases node <;> cases c <;> try rfl
  case dictionary.property entries key => simp only [withChild, Entries.insert_insert]
  case array.index items i => simp only [withChild, set_element_twice]

theorem child_for_beside {node : Node} {c d : Component} (differ : c ≠ d)
    (fits : node.kind = c.container) (same_sort : c.SameSort d) (c_counted : c.NonNegative)
    (d_counted : d.NonNegative) (x : Node) (rest : KeyPath) :
    (node.withChild c x).childFor d rest = node.childFor d rest := by
  have before_fits : node.kind = d.container := fits.trans (same_container same_sort)
  have after_fits : (node.withChild c x).kind = d.container := by
    rw [kind_with_child, before_fits]
  -- a null that the write put there is taken for the element that was missing
  by_cases filled : Filled node c d
  · have before : Vacant node d := .inl (filled_missing filled [])
    have after : Vacant (node.withChild c x) d := by
      obtain ⟨items, i, j, -, -, rfl, -⟩ := id filled
      exact .inr ⟨⟨j, rfl⟩, get_filled filled x []⟩
    rw [child_for_vacant before_fits d_counted before,
      child_for_vacant after_fits d_counted after]
  · have same := get_beside fits c_counted (Ne.symm differ) filled x []
    by_cases before : Vacant node d
    · have after : Vacant (node.withChild c x) d := by
        rw [Vacant, same]
        exact before
      rw [child_for_vacant before_fits d_counted before,
        child_for_vacant after_fits d_counted after]
    · have after : ¬ Vacant (node.withChild c x) d := by
        rw [Vacant, same]
        exact before
      obtain ⟨child, found⟩ := taken_child before
      rw [child_for_taken found before, child_for_taken (same.trans found) after]

theorem child_for_again {node x : Node} {c : Component} (fits : node.kind = c.container)
    (counted : c.NonNegative) (no_slot : ∀ i, c = .index i → x ≠ .null) (rest : KeyPath) :
    (node.withChild c x).childFor c rest = x := by
  have found : (node.withChild c x).get? [c] = some x := get_child fits counted x []
  refine child_for_taken found ?_ rest
  rintro (missing | ⟨⟨i, index⟩, null⟩)
  · rw [found] at missing
    cases missing
  · exact no_slot i index (Option.some.inj (found.symm.trans null))

theorem empty_for_apart {p q : KeyPath} (apart : KeyPath.Apart p q) :
    emptyFor p = emptyFor q := by
  cases apart with
  | @here c d differ same_sort p q =>
    cases c <;> cases d <;> first | rfl | cases same_sort
  | later c apart => cases c <;> rfl

theorem child_for_apart {node : Node} {c : Component} {p q : KeyPath}
    (same : emptyFor p = emptyFor q) : node.childFor c p = node.childFor c q := by
  cases node <;> cases c <;> simp only [childFor, entryFor, elementFor, same]

theorem child_for_not_null {node : Node} {i : Int} {path : KeyPath}
    (fits : node.kind = (Component.index i).container) (counted : (Component.index i).NonNegative)
    (further : path ≠ []) : (node.childFor (.index i) path).kind ≠ .null := by
  by_cases vacant : Vacant node (.index i)
  · obtain ⟨c, rest, rfl⟩ := List.exists_cons_of_ne_nil further
    rw [child_for_vacant fits counted vacant, empty_for_fits]
    cases c <;> simp [Component.container]
  · obtain ⟨child, found⟩ := taken_child vacant
    rw [child_for_taken found vacant]
    intro null
    cases child <;> simp [kind] at null
    exact vacant (.inr ⟨⟨i, rfl⟩, found⟩)

theorem place_kind {path : KeyPath} (further : path ≠ []) (node value : Node) :
    (place node path value).1.kind = node.kind := by
  obtain ⟨c, rest, rfl⟩ := List.exists_cons_of_ne_nil further
  by_cases fits : node.kind = c.container
  · rw [place_fits fits, kind_with_child]
  · rw [place_unfit fits]

theorem placed_not_null {node : Node} {c : Component} {path : KeyPath}
    (fits : node.kind = c.container) (counted : c.NonNegative) (further : path ≠ [])
    (value : Node) : ∀ i, c = .index i → (place (node.childFor c path) path value).1 ≠ .null := by
  rintro i rfl null
  have kept := place_kind further (node.childFor (.index i) path) value
  rw [null] at kept
  exact child_for_not_null fits counted further kept.symm

theorem apart_ne_nil {p q : KeyPath} (apart : KeyPath.Apart p q) : p ≠ [] := by
  cases apart <;> simp

/-- Neither of two writes at apart paths has a part in the outcome of the other, and the tree that
    both leave behind does not depend on their order, failed writes included. -/
theorem place_apart {p q : KeyPath} (apart : KeyPath.Apart p q)
    (p_counted : ∀ c ∈ p, c.NonNegative) (q_counted : ∀ c ∈ q, c.NonNegative)
    (node v w : Node) :
    (place (place node p v).1 q w).1 = (place (place node q w).1 p v).1 ∧
      (place (place node p v).1 q w).2 = (place node q w).2 := by
  induction apart generalizing node with
  | @here c d differ same_sort p q =>
    have c_counted : c.NonNegative := p_counted c List.mem_cons_self
    have d_counted : d.NonNegative := q_counted d List.mem_cons_self
    by_cases fits : node.kind = c.container
    · have d_fits : node.kind = d.container := fits.trans (same_container same_sort)
      have after_p (x : Node) : (node.withChild c x).kind = d.container := by
        rw [kind_with_child, d_fits]
      have after_q (y : Node) : (node.withChild d y).kind = c.container := by
        rw [kind_with_child, fits]
      -- two children of one container: neither write sees the child of the other
      rw [place_fits fits, place_fits d_fits, place_fits (after_p _), place_fits (after_q _),
        child_for_beside differ fits same_sort c_counted d_counted,
        child_for_beside (Ne.symm differ) d_fits same_sort.symm d_counted c_counted]
      exact ⟨with_child_comm differ c_counted d_counted _ _, rfl⟩
    · have d_unfit : node.kind ≠ d.container := fun same =>
        fits (same.trans (same_container same_sort).symm)
      simp only [place_unfit fits, place_unfit d_unfit, and_self]
  | @later c p q apart ih =>
    by_cases fits : node.kind = c.container
    · have after (x : Node) : (node.withChild c x).kind = c.container := by
        rw [kind_with_child, fits]
      have counted : c.NonNegative := p_counted c List.mem_cons_self
      have shared : node.childFor c p = node.childFor c q :=
        child_for_apart (empty_for_apart apart)
      -- one child: the second write goes on with what the first one left there
      obtain ⟨trees, outcome⟩ :=
        ih (List.forall_mem_cons.mp p_counted).2 (List.forall_mem_cons.mp q_counted).2
          (node.childFor c q)
      rw [place_fits fits, place_fits fits, place_fits (after _), place_fits (after _),
        child_for_again fits counted (placed_not_null fits counted (apart_ne_nil apart) v),
        child_for_again fits counted (placed_not_null fits counted (apart_ne_nil apart.symm) w),
        with_child_twice, with_child_twice, shared]
      exact ⟨congrArg (node.withChild c) trees, outcome⟩
    · simp only [place_unfit fits, and_self]

theorem write_apart {p q : KeyPath} (apart : KeyPath.Apart p q) (root v w : Node) :
    ((root.write p v).1.write q w).1 = ((root.write q w).1.write p v).1 ∧
      ((root.write p v).1.write q w).2 = (root.write q w).2 := by
  cases p_checked : checkPath p with
  | error fault => simp only [write_eq, p_checked, and_self]
  | ok passed =>
    cases q_checked : checkPath q with
    | error fault => simp only [write_eq, p_checked, q_checked, and_self]
    | ok also_passed =>
      obtain ⟨trees, outcome⟩ := place_apart apart (checked_nonnegative p_checked)
        (checked_nonnegative q_checked) root v w
      simp only [write_eq, p_checked, q_checked, trees, outcome, and_self]

def writeAll : Node → List (KeyPath × Node) → Node × List (Except EditError Unit)
  | root, [] => (root, [])
  | root, (path, value) :: rest =>
    let (tree, outcome) := root.write path value
    let (last, outcomes) := writeAll tree rest
    (last, outcome :: outcomes)

def ApartWrites (writes : List (KeyPath × Node)) : Prop :=
  writes.Pairwise fun a b => KeyPath.Apart a.1 b.1

theorem write_all_tree (root : Node) (writes : List (KeyPath × Node)) :
    (writeAll root writes).1 =
      writes.foldl (fun tree write => (tree.write write.1 write.2).1) root := by
  induction writes generalizing root with
  | nil => rfl
  | cons first rest ih => exact ih (root.write first.1 first.2).1

theorem write_all_outcomes {writes : List (KeyPath × Node)} (apart : ApartWrites writes)
    (root : Node) :
    (writeAll root writes).2 = writes.map fun write => (root.write write.1 write.2).2 := by
  induction writes generalizing root with
  | nil => rfl
  | cons first rest ih =>
    obtain ⟨from_first, apart⟩ := List.pairwise_cons.mp apart
    have later : (writeAll (root.write first.1 first.2).1 rest).2 =
        rest.map fun write => (root.write write.1 write.2).2 := by
      rw [ih apart]
      refine List.map_congr_left fun write member => ?_
      exact (write_apart (from_first write member) root first.2 write.2).2
    rw [List.map_cons, ← later]
    rfl

end Node
end DocAudit
