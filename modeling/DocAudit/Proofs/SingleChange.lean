import DocAudit.Proofs.AlikeTrees
import DocAudit.Proofs.Edit.Invariance

/- One change to a tree is what the comparison reports, in whichever order it takes the two trees. A
   write to an existing location puts one child back into each container on its way and leaves the
   others as they are. These are alike to themselves if every blob is loaded; so of all parts of the
   container only the one written to can diverge, and the report is that of the written part, one
   component farther from the root at each level. -/
namespace DocAudit

def Mismatch.beneath (location : KeyPath) (mismatch : Mismatch) : Mismatch :=
  { mismatch with location := location ++ mismatch.location }

namespace Comparison
open Node

theorem map_beneath_nil (result : Option Mismatch) :
    result.map (Mismatch.beneath []) = result := by
  cases result <;> rfl

theorem map_beneath_cons (component : Component) (rest : KeyPath) (result : Option Mismatch) :
    (result.map (Mismatch.beneath rest)).map (Mismatch.below component) =
      result.map (Mismatch.beneath (component :: rest)) := by
  cases result <;> rfl

theorem find_some_single {α β : Type} {items : List α} {f : α → Option β} {single : α}
    (others : ∀ item ∈ items, item ≠ single → f item = none) (member : single ∈ items) :
    items.findSome? f = f single := by
  cases found : f single with
  | none =>
    refine List.findSome?_eq_none_iff.mpr fun item also_member => ?_
    by_cases same : item = single
    · rw [same, found]
    · exact others item also_member same
  | some result =>
    have answered : (items.findSome? f).isSome = true :=
      List.findSome?_isSome_iff.mpr ⟨single, member, by rw [found]; rfl⟩
    obtain ⟨other, answer⟩ := Option.isSome_iff_exists.mp answered
    obtain ⟨item, also_member, produced⟩ := List.exists_of_findSome?_eq_some answer
    have same : item = single := by
      by_contra differ
      rw [others item also_member differ] at produced
      cases produced
    rw [answer, ← produced, same, found]

def SameBeside (a b : Node) (component : Component) : Prop :=
  ∀ other, other ≠ component → a.get? [other] = b.get? [other] ∧
    ∀ child, a.get? [other] = some child → compare child child = none

theorem SameBeside.symm {a b : Node} {component : Component} (same : SameBeside a b component) :
    SameBeside b a component := by
  intro other beside
  obtain ⟨equal, alike⟩ := same other beside
  rw [← equal]
  exact ⟨rfl, alike⟩

theorem compare_single_part {a b x y : Node} {component : Component} (lockstep : Lockstep a b)
    (ordered : a.Ordered) (other_ordered : b.Ordered) (found : a.get? [component] = some x)
    (other_found : b.get? [component] = some y) (same : SameBeside a b component) :
    compare a b = (compare x y).map (Mismatch.below component) := by
  have listed : component ∈ components a b :=
    components_complete lockstep (.inl (by rw [found]; rfl))
  rw [compare_branches lockstep ordered other_ordered, find_some_single ?_ listed,
    branch_shared found other_found]
  -- every other part is alike to itself and is passed over
  intro other _ beside
  obtain ⟨equal, alike⟩ := same other beside
  rw [branch_none_iff, ← equal]
  cases part : a.get? [other] with
  | none => trivial
  | some child => exact alike child part

section write
variable {node child : Node} {component : Component}

theorem lockstep_put_back (found : node.get? [component] = some child) (x : Node) :
    Lockstep node (node.withChild component x) ∧ Lockstep (node.withChild component x) node := by
  rcases child_cases found with ⟨entries, key, rfl, rfl, -⟩ | ⟨items, i, rfl, rfl, item⟩
  · exact ⟨.dictionaries _ _, .dictionaries _ _⟩
  · have inside := (List.getElem?_eq_some_iff.mp item).1
    have kept : (setElement items i x).length = items.length := by
      rw [set_element_length]
      omega
    exact ⟨.arrays _ _ kept.symm, .arrays _ _ kept⟩

theorem same_beside_put_back (ordered : node.Ordered) (loaded : node.Loaded)
    (found : node.get? [component] = some child) (nonnegative : component.NonNegative) (x : Node) :
    SameBeside node (node.withChild component x) component := by
  intro other beside
  refine ⟨?_, fun part found_part => ?_⟩
  · exact (get_beside (fits_of_child found) nonnegative beside (unfilled_of_child found other) x
      []).symm
  · exact (alike_self_iff (ordered_child ordered found_part)).mpr (loaded_child loaded found_part)

theorem compare_put_back (ordered : node.Ordered) (loaded : node.Loaded)
    (found : node.get? [component] = some child) (nonnegative : component.NonNegative) {x : Node}
    (x_ordered : x.Ordered) :
    compare node (node.withChild component x) =
        (compare child x).map (Mismatch.below component) ∧
      compare (node.withChild component x) node =
        (compare x child).map (Mismatch.below component) := by
  obtain ⟨forth, back⟩ := lockstep_put_back found x
  have same := same_beside_put_back ordered loaded found nonnegative x
  have after_ordered := ordered_with_child component ordered x_ordered
  have put : (node.withChild component x).get? [component] = some x :=
    get_child (fits_of_child found) nonnegative x []
  exact ⟨compare_single_part forth ordered after_ordered found put same,
    compare_single_part back after_ordered ordered put found same.symm⟩

theorem place_compared {path : KeyPath} (nonnegative : ∀ component ∈ path, component.NonNegative)
    {root old value : Node} (ordered : root.Ordered) (loaded : root.Loaded)
    (value_ordered : value.Ordered) (found : root.get? path = some old) :
    ∃ after, place root path value = (after, .ok ()) ∧ after.Ordered ∧
      compare root after = (compare old value).map (Mismatch.beneath path) ∧
      compare after root = (compare value old).map (Mismatch.beneath path) := by
  -- inside out: at each node the child on the path is the only part that differs
  induction path generalizing root with
  | nil =>
    cases found
    rw [map_beneath_nil, map_beneath_nil]
    exact ⟨value, rfl, value_ordered, rfl, rfl⟩
  | cons component rest ih =>
    obtain ⟨counted, rest_counted⟩ := List.forall_mem_cons.mp nonnegative
    rw [get_cons] at found
    obtain ⟨child, first, later⟩ := Option.bind_eq_some_iff.mp found
    obtain ⟨after, placed, after_ordered, forth, back⟩ := ih rest_counted
      (ordered_child ordered first) (loaded_child loaded first) later
    obtain ⟨put_forth, put_back⟩ := compare_put_back ordered loaded first counted after_ordered
    refine ⟨root.withChild component after, ?_, ordered_with_child component ordered after_ordered,
      ?_, ?_⟩
    · rw [place_fits (fits_of_child first), place_child_for first later, placed]
    · rw [put_forth, forth, map_beneath_cons]
    · rw [put_back, back, map_beneath_cons]

end write

/-- In a tree whose blobs are all loaded, a write to an existing location within the limits is
    reported from both sides as the divergence between the old and the new value, at its place
    below the location, and not at all if there is none. -/
theorem single_change_pinpointed {root old value : Node} (ordered : root.Ordered)
    (loaded : root.Loaded) (value_ordered : value.Ordered) {location : KeyPath}
    (found : root.get? location = some old) (short : location.length ≤ Limit.maxPathLength)
    (in_bounds : ∀ i, Component.index i ∈ location → i < Limit.maxArraySize) :
    ∃ after, root.write location value = (after, .ok ()) ∧
      (compare old value = none → compare root after = none ∧ compare after root = none) ∧
      ∀ mismatch, compare old value = some mismatch →
        compare root after = some (mismatch.beneath location) ∧
        ∃ reverse, compare value old = some reverse ∧
          compare after root = some (reverse.beneath location) := by
  have nonnegative := existing_nonnegative found
  have checked : checkPath location = .ok () := by
    refine (check_path_ok_iff location).mpr ⟨short, fun i member => ?_⟩
    exact (check_index_ok_iff i).mpr ⟨nonnegative _ member, in_bounds i member⟩
  obtain ⟨after, placed, -, forth, back⟩ :=
    place_compared nonnegative ordered loaded value_ordered found
  have old_ordered := ordered_at ordered found
  refine ⟨after, ?_, ?_, ?_⟩
  · rw [write_eq, checked, placed]
    rfl
  · intro nothing
    have nothing_back := alike_symm old_ordered value_ordered nothing
    rw [forth, back, nothing, nothing_back]
    exact ⟨rfl, rfl⟩
  · intro mismatch reported
    refine ⟨by rw [forth, reported]; rfl, ?_⟩
    -- nothing one way would be nothing the other way too
    cases reverse : compare value old with
    | none =>
      rw [alike_symm value_ordered old_ordered reverse] at reported
      cases reported
    | some other =>
      rw [reverse] at back
      exact ⟨other, rfl, back⟩

theorem changed_entry_of_an_element :
    (dictionary [("a", array [null, dictionary [("b.c", dictionary [("x", null)])]])]).write
        [.property "a", .index 1, .property "b.c"]
        (dictionary [("w", null), ("x", string "y")]) =
      (dictionary [("a", array [null,
        dictionary [("b.c", dictionary [("w", null), ("x", string "y")])]])], .ok ()) ∧
    compare (dictionary [("a", array [null, dictionary [("b.c", dictionary [("x", null)])]])])
        (dictionary [("a", array [null,
          dictionary [("b.c", dictionary [("w", null), ("x", string "y")])]])]) =
      some ⟨[.property "a", .index 1, .property "b.c", .property "x"], some null,
        some (string "y"), .mismatchedProperty⟩ ∧
    compare (dictionary [("a", array [null,
          dictionary [("b.c", dictionary [("w", null), ("x", string "y")])]])])
        (dictionary [("a", array [null, dictionary [("b.c", dictionary [("x", null)])]])]) =
      some ⟨[.property "a", .index 1, .property "b.c", .property "w"], some null, none,
        .mismatchedProperty⟩ := by
  have ordered : (dictionary
      [("a", array [null, dictionary [("b.c", dictionary [("x", null)])]])]).Ordered := by
    simp [Ordered, OrderedEntries, OrderedItems, Entries.Ascending]
  have loaded : (dictionary
      [("a", array [null, dictionary [("b.c", dictionary [("x", null)])]])]).Loaded := by
    simp [Loaded, LoadedEntries, LoadedItems]
  have value_ordered : (dictionary [("w", null), ("x", string "y")]).Ordered := by
    simp [Ordered, OrderedEntries, Entries.Ascending]
    decide
  have found : (dictionary
      [("a", array [null, dictionary [("b.c", dictionary [("x", null)])]])]).get?
        [.property "a", .index 1, .property "b.c"] = some (dictionary [("x", null)]) := rfl
  obtain ⟨after, written, -, changed⟩ := single_change_pinpointed ordered loaded value_ordered
    found (by decide) (by simp [Limit.maxArraySize])
  cases written
  obtain ⟨forth, reverse, reversed, back⟩ := changed _ rfl
  cases reversed
  exact ⟨rfl, forth, back⟩

end Comparison
end DocAudit
