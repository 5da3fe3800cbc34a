import DocAudit.Proofs.Edit.Agreement

/- Exactly when a write is accepted, and with which error it is refused. The path is looked at first,
   apart from any tree: its length, and then its indices from the left. After that a write is stopped
   only by an obstacle, a node on its way that is not the container which the next component steps
   into, nor a null element of an array, for which a container would be put. Nothing is found below
   an obstacle, so a path has at most one of them in a tree. -/
namespace DocAudit

structure KeyPath.WithinLimits (path : KeyPath) : Prop where
  short : path.length ≤ 256
  in_bounds : ∀ i, Component.index i ∈ path → 0 ≤ i ∧ i ≤ 999999

/-- The index is part of the path, and the indices to the left of it are within the bounds. -/
def KeyPath.AfterSoundIndices (path : KeyPath) (i : Int) : Prop :=
  ∃ before rest, path = before ++ .index i :: rest ∧
    ∀ j, Component.index j ∈ before → 0 ≤ j ∧ j ≤ 999999

namespace Node

def NullElement (location : KeyPath) (node : Node) : Prop :=
  node = .null ∧ ∃ above i, location = above ++ [.index i]

structure Obstacle (root : Node) (path location : KeyPath) (component : Component)
    (node : Node) : Prop where
  on_the_way : ∃ rest, path = location ++ component :: rest
  found : root.get? location = some node
  unfit : node.kind ≠ component.container
  not_replaced : ¬ NullElement location node

def Passable (root : Node) (path : KeyPath) : Prop :=
  ∀ location component rest node, path = location ++ component :: rest →
    root.get? location = some node →
    node.kind = component.container ∨ NullElement location node

/-- What a write is refused for. A case applies only where those before it do not: the length comes
    before the indices, the first index that is out of bounds before the ones to its right, and all
    of the path before the tree. -/
inductive Refused (root : Node) (path : KeyPath) : EditFault → Prop
  | tooLong (long : 256 < path.length) :
      Refused root path (.limit (.pathTooLong path.length 256))
  | negative {i : Int} (short : path.length ≤ 256) (first : path.AfterSoundIndices i)
      (negative : i < 0) : Refused root path (.negativeIndex i)
  | tooLarge {i : Int} (short : path.length ≤ 256) (first : path.AfterSoundIndices i)
      (large : 999999 < i) :
      Refused root path
        (.limit (.arrayTooLarge (min (i.toNat + 1) Word.greatestUnsigned) 1000000))
  | stopped {location : KeyPath} {component : Component} {node : Node}
      (within : path.WithinLimits) (obstacle : Obstacle root path location component node)
      (first : ∀ shorter other found, Obstacle root path shorter other found →
        location.length ≤ shorter.length) :
      Refused root path (.typeMismatch component.container node.kind)

section path
variable {path : KeyPath} {fault : EditFault}

theorem check_index_iff_bounds (i : Int) : checkIndex i = .ok () ↔ 0 ≤ i ∧ i ≤ 999999 := by
  have limit : (Limit.maxArraySize : Int) = 1000000 := rfl
  rw [check_index_ok_iff]
  omega

theorem check_path_iff_within : checkPath path = .ok () ↔ path.WithinLimits := by
  rw [check_path_ok_iff]
  simp only [check_index_iff_bounds]
  exact ⟨fun passed => ⟨passed.1, passed.2⟩, fun within => ⟨within.short, within.in_bounds⟩⟩

theorem check_index_error_iff (i : Int) :
    checkIndex i = .error fault ↔ i < 0 ∧ fault = .negativeIndex i ∨
      999999 < i ∧
        fault = .limit (.arrayTooLarge (min (i.toNat + 1) Word.greatestUnsigned) 1000000) := by
  by_cases negative : i < 0
  · have small : ¬ 999999 < i := by omega
    simp [checkIndex, negative, small, eq_comm]
  · have passed := check_array_index_ok_iff i.toNat
    have limit : Limit.maxArraySize = 1000000 := rfl
    by_cases large : 999999 < i
    · have refused : Limit.sizeWithIndex i.toNat > Limit.maxArraySize := by
        unfold Limit.sizeWithIndex Word.greatestUnsigned
        omega
      simp only [checkIndex, negative, Limit.checkArrayIndex, refused, large, ↓reduceIte,
        false_and, true_and, false_or, Except.error.injEq]
      exact eq_comm
    · have sound : Limit.checkArrayIndex i.toNat = .ok () := passed.mpr (by omega)
      simp [checkIndex, negative, sound, large]

theorem after_sound_cons (component : Component) (rest : KeyPath) (i : Int) :
    KeyPath.AfterSoundIndices (component :: rest) i ↔ component = .index i ∨
      (∀ j, component = .index j → 0 ≤ j ∧ j ≤ 999999) ∧ rest.AfterSoundIndices i := by
  constructor
  · rintro ⟨before, later, split, sound⟩
    cases before with
    | nil => exact .inl (List.cons.inj split).1
    | cons first before =>
      obtain ⟨rfl, rfl⟩ := List.cons.inj split
      refine .inr ⟨?_, before, later, rfl, fun j member => sound j (List.mem_cons_of_mem _ member)⟩
      rintro j rfl
      exact sound j List.mem_cons_self
  · rintro (rfl | ⟨here, before, later, rfl, sound⟩)
    · exact ⟨[], rest, rfl, by simp⟩
    · refine ⟨component :: before, later, rfl, fun j member => ?_⟩
      rcases List.mem_cons.mp member with same | member
      · exact here j same.symm
      · exact sound j member

theorem check_indices_error_iff :
    checkIndices path = .error fault ↔
      ∃ i, path.AfterSoundIndices i ∧ checkIndex i = .error fault := by
  induction path with
  | nil => simp [checkIndices, KeyPath.AfterSoundIndices]
  | cons component rest ih =>
    cases component with
    | property key => simp [checkIndices, after_sound_cons, ih]
    | index j =>
      simp only [checkIndices, after_sound_cons, Component.index.injEq, forall_eq',
        ← check_index_iff_bounds]
      cases checked : checkIndex j with
      | error other => simp [checked]
      | ok passed => simp [checked, ih]

theorem check_path_error_iff :
    checkPath path = .error fault ↔
      256 < path.length ∧ fault = .limit (.pathTooLong path.length 256) ∨
      path.length ≤ 256 ∧ ∃ i, path.AfterSoundIndices i ∧ checkIndex i = .error fault := by
  have limit : Limit.maxPathLength = 256 := rfl
  rw [← check_indices_error_iff, checkPath, Limit.checkPathLength, limit]
  rcases Nat.lt_or_ge 256 path.length with long | short
  · have not_short : ¬ path.length ≤ 256 := by omega
    simp [long, not_short, eq_comm]
  · have not_long : ¬ 256 < path.length := by omega
    simp [short, not_long]

end path

/-! The nodes on the way. -/

section way
variable {root node found other : Node} {path location site rest : KeyPath}
  {component next : Component}

theorem unfit_missing (unfit : node.kind ≠ component.container) (rest : KeyPath) :
    node.get? (component :: rest) = none := by
  rw [get_cons]
  cases child : node.get? [component] with
  | none => rfl
  | some child => exact absurd (fits_of_child ‹_›) unfit

theorem obstacle_before (first : Obstacle root path location component node)
    (second : Obstacle root path site next other) : site.length ≤ location.length := by
  obtain ⟨rest, way⟩ := first.on_the_way
  obtain ⟨further, other_way⟩ := second.on_the_way
  by_contra longer
  have below : ∃ between, site = location ++ component :: between := by
    rcases List.append_eq_append_iff.mp (way.symm.trans other_way) with
      ⟨between, split, onward⟩ | ⟨between, split, -⟩
    · cases between with
      | nil => simp [split] at longer
      | cons first between =>
        obtain ⟨rfl, -⟩ := List.cons.inj onward
        exact ⟨between, split⟩
    · simp [split] at longer
  obtain ⟨between, rfl⟩ := below
  have reached := second.found
  rw [get_append, first.found, Option.bind_some, unfit_missing first.unfit] at reached
  cases reached

theorem obstacle_unique (first : Obstacle root path location component node)
    (second : Obstacle root path site next other) : component = next ∧ node = other := by
  obtain ⟨rest, way⟩ := first.on_the_way
  obtain ⟨further, other_way⟩ := second.on_the_way
  have lengths : location.length = site.length :=
    Nat.le_antisymm (obstacle_before second first) (obstacle_before first second)
  obtain ⟨rfl, same⟩ := List.append_inj (way.symm.trans other_way) lengths
  exact ⟨(List.cons.inj same).1, Option.some.inj (first.found.symm.trans second.found)⟩

theorem null_element_nil (node : Node) : ¬ NullElement [] node := by
  rintro ⟨-, above, i, ends⟩
  simp at ends

theorem null_element_cons (below : location ≠ []) :
    NullElement (component :: location) node ↔ NullElement location node := by
  refine and_congr_right fun null => ?_
  constructor
  · rintro ⟨above, i, ends⟩
    cases above with
    | nil =>
      obtain ⟨-, nothing⟩ := List.cons.inj ends
      exact absurd nothing below
    | cons first above => exact ⟨above, i, (List.cons.inj ends).2⟩
  · rintro ⟨above, i, ends⟩
    exact ⟨component :: above, i, by rw [ends]; rfl⟩

theorem vacant_iff_null_element (at_child : node.get? [component] = some found) :
    Vacant node component ↔ NullElement [component] found := by
  rw [Vacant, at_child]
  constructor
  · rintro (missing | ⟨⟨i, rfl⟩, null⟩)
    · cases missing
    · cases null
      exact ⟨rfl, [], i, rfl⟩
  · rintro ⟨rfl, above, i, ends⟩
    cases above with
    | nil => exact .inr ⟨⟨i, (List.cons.inj ends).1⟩, rfl⟩
    | cons first above => simp at ends

theorem obstacle_here (unfit : node.kind ≠ component.container) :
    Obstacle node (component :: rest) [] component node where
  on_the_way := ⟨rest, rfl⟩
  found := rfl
  unfit := unfit
  not_replaced := null_element_nil node

theorem on_the_way_cons :
    (∃ later, component :: rest = component :: location ++ next :: later) ↔
      ∃ later, rest = location ++ next :: later := by
  simp

theorem obstacle_at_child (fits : node.kind = component.container)
    (counted : component.NonNegative) :
    Obstacle (node.childFor component rest) rest [] next found ↔
      Obstacle node (component :: rest) [component] next found := by
  -- a created child fits what comes next, and replaces a null element if anything
  by_cases vacant : Vacant node component
  · constructor
    · rintro ⟨⟨later, rfl⟩, at_child, unfit, -⟩
      rw [child_for_vacant fits counted vacant] at at_child
      cases at_child
      exact absurd (empty_for_fits next later) unfit
    · rintro ⟨-, at_child, -, not_replaced⟩
      exact absurd ((vacant_iff_null_element at_child).mp vacant) not_replaced
  · obtain ⟨child, at_child⟩ := taken_child vacant
    rw [child_for_taken at_child vacant]
    constructor
    · rintro ⟨way, same, unfit, -⟩
      cases same
      exact ⟨on_the_way_cons.mpr way, at_child, unfit,
        mt (vacant_iff_null_element at_child).mpr vacant⟩
    · rintro ⟨way, same, unfit, -⟩
      cases at_child.symm.trans same
      exact ⟨on_the_way_cons.mp way, rfl, unfit, null_element_nil _⟩

theorem obstacle_below (fits : node.kind = component.container)
    (counted : component.NonNegative) :
    Obstacle (node.childFor component rest) rest location next found ↔
      Obstacle node (component :: rest) (component :: location) next found := by
  by_cases here : location = []
  · subst here
    exact obstacle_at_child fits counted
  · have same := get_child_for fits counted rest here
    constructor
    · rintro ⟨way, at_place, unfit, not_replaced⟩
      exact ⟨on_the_way_cons.mpr way, same.symm.trans at_place, unfit,
        mt (null_element_cons here).mp not_replaced⟩
    · rintro ⟨way, at_place, unfit, not_replaced⟩
      exact ⟨on_the_way_cons.mp way, same.trans at_place, unfit,
        mt (null_element_cons here).mpr not_replaced⟩

theorem place_refused_iff (nonnegative : ∀ component ∈ path, component.NonNegative)
    (root value : Node) (fault : EditFault) :
    (place root path value).2 = .error fault ↔
      ∃ location component node, Obstacle root path location component node ∧
        fault = .typeMismatch component.container node.kind := by
  induction path generalizing root with
  | nil =>
    have no_way : ∀ location component node, ¬ Obstacle root [] location component node := by
      rintro location component node ⟨⟨rest, way⟩, -⟩
      simp at way
    simp [place, no_way]
  | cons component rest ih =>
    obtain ⟨counted, rest_counted⟩ := List.forall_mem_cons.mp nonnegative
    by_cases fits : root.kind = component.container
    · rw [place_fits fits]
      simp only [ih rest_counted]
      constructor
      · rintro ⟨location, next, node, obstacle, named⟩
        exact ⟨component :: location, next, node, (obstacle_below fits counted).mp obstacle, named⟩
      · rintro ⟨location, next, node, obstacle, named⟩
        obtain ⟨later, way⟩ := obstacle.on_the_way
        cases location with
        | nil =>
          obtain ⟨rfl, -⟩ := List.cons.inj way
          cases obstacle.found
          exact absurd fits obstacle.unfit
        | cons first location =>
          obtain ⟨rfl, -⟩ := List.cons.inj way
          exact ⟨location, next, node, (obstacle_below fits counted).mpr obstacle, named⟩
    · rw [place_unfit fits]
      constructor
      · intro refused
        cases refused
        exact ⟨[], component, root, obstacle_here fits, rfl⟩
      · rintro ⟨location, next, node, obstacle, rfl⟩
        -- the root is an obstacle itself, and a path has no second one
        obtain ⟨rfl, rfl⟩ := obstacle_unique (obstacle_here fits) obstacle
        rfl

theorem passable_iff_no_obstacle :
    Passable root path ↔
      ∀ location component node, ¬ Obstacle root path location component node := by
  constructor
  · rintro passable location component node ⟨⟨rest, way⟩, reached, unfit, not_replaced⟩
    exact (passable location component rest node way reached).elim unfit not_replaced
  · intro clear location component rest node way reached
    by_contra stopped
    obtain ⟨unfit, not_replaced⟩ := not_or.mp stopped
    exact clear location component node ⟨⟨rest, way⟩, reached, unfit, not_replaced⟩

end way

section write
variable {root : Node} {path : KeyPath}

theorem refused_iff (fault : EditFault) :
    Refused root path fault ↔ checkPath path = .error fault ∨
      checkPath path = .ok () ∧ ∃ location component node,
        Obstacle root path location component node ∧
          fault = .typeMismatch component.container node.kind := by
  constructor
  · rintro (long | ⟨short, first, negative⟩ | ⟨short, first, large⟩ | ⟨within, obstacle, -⟩)
    · exact .inl (check_path_error_iff.mpr (.inl ⟨long, rfl⟩))
    · have refused := (check_index_error_iff _).mpr (.inl ⟨negative, rfl⟩)
      exact .inl (check_path_error_iff.mpr (.inr ⟨short, _, first, refused⟩))
    · have refused := (check_index_error_iff _).mpr (.inr ⟨large, rfl⟩)
      exact .inl (check_path_error_iff.mpr (.inr ⟨short, _, first, refused⟩))
    · exact .inr ⟨check_path_iff_within.mpr within, _, _, _, obstacle, rfl⟩
  · rintro (refused | ⟨passed, location, component, node, obstacle, rfl⟩)
    · rcases check_path_error_iff.mp refused with ⟨long, rfl⟩ | ⟨short, i, first, here⟩
      · exact .tooLong long
      · rcases (check_index_error_iff i).mp here with ⟨negative, rfl⟩ | ⟨large, rfl⟩
        · exact .negative short first negative
        · exact .tooLarge short first large
    · exact .stopped (check_path_iff_within.mp passed) obstacle fun _ _ _ other =>
        obstacle_before other obstacle

theorem write_error_iff (value : Node) (error : EditError) :
    (root.write path value).2 = .error error ↔
      error.path = path ∧ Refused root path error.fault := by
  rw [write_eq, refused_iff]
  obtain ⟨written, fault⟩ := error
  cases checked : checkPath path with
  | error other => simp [eq_comm]
  | ok passed =>
    simp only [outcome_at_error, place_refused_iff (checked_nonnegative checked), reduceCtorEq,
      false_or, true_and, EditError.mk.injEq]
    constructor
    · rintro ⟨named, stopped, rfl, rfl⟩
      exact ⟨rfl, stopped⟩
    · rintro ⟨rfl, stopped⟩
      exact ⟨fault, stopped, rfl, rfl⟩

theorem write_ok_iff (value : Node) :
    (root.write path value).2 = .ok () ↔ path.WithinLimits ∧ Passable root path := by
  rw [write_eq, ← check_path_iff_within, passable_iff_no_obstacle]
  cases checked : checkPath path with
  | error fault => simp
  | ok passed =>
    have refused := place_refused_iff (checked_nonnegative checked) root value
    simp only [true_and]
    cases outcome : (place root path value).2 with
    | ok done =>
      simp only [outcome, reduceCtorEq, false_iff] at refused
      simp only [outcomeAt, true_iff]
      intro location component node obstacle
      exact refused _ ⟨location, component, node, obstacle, rfl⟩
    | error fault =>
      obtain ⟨location, component, node, obstacle, -⟩ := (refused fault).mp outcome
      simp only [outcomeAt, reduceCtorEq, false_iff]
      exact fun clear => clear location component node obstacle

theorem obstacle_stops {location : KeyPath} {component : Component} {node : Node}
    (checked : checkPath path = .ok ()) (obstacle : Obstacle root path location component node)
    (value : Node) :
    root.remove path = (root, .error ⟨path, .typeMismatch component.container node.kind⟩) ∧
      root.write path value =
        (root, .error ⟨path, .typeMismatch component.container node.kind⟩) := by
  obtain ⟨⟨rest, way⟩, found, unfit, not_replaced⟩ := obstacle
  have no_slot : node = .null → ∀ above i, location ≠ above ++ [.index i] :=
    fun null above i ends => not_replaced ⟨null, above, i, ends⟩
  exact blocked_edits checked ⟨location, rest, way, found, unfit, no_slot⟩ value

theorem leaf_stays {location rest : KeyPath} {component : Component} {node : Node} (value : Node)
    (way : path = location ++ component :: rest) (found : root.get? location = some node)
    (leaf : node.isContainer = false) (not_null : node ≠ .null) :
    (root.write path value).1 = root ∧ (root.write path value).2 ≠ .ok () := by
  cases checked : checkPath path with
  | error fault => simp [write_eq, checked]
  | ok passed =>
    have unfit : node.kind ≠ component.container := by
      intro fits
      rcases container_cases fits with ⟨entries, key, rfl, -⟩ | ⟨items, i, rfl, -⟩ <;> cases leaf
    have obstacle : Obstacle root path location component node :=
      ⟨⟨rest, way⟩, found, unfit, fun null => not_null null.1⟩
    rw [(obstacle_stops checked obstacle value).2]
    exact ⟨rfl, by simp⟩

end write

/-- A write succeeds exactly if its path is within the limits and leads through fitting containers,
    missing locations and null elements only. If it fails, the error is the first that applies of
    the length, the indices from the left, and the node that stops the write, with the kind that
    was needed there and the kind that was found. So no leaf but a null element is ever written
    through. -/
theorem write_verdict (root : Node) (path : KeyPath) (value : Node) :
    ((root.write path value).2 = .ok () ↔ path.WithinLimits ∧ Passable root path) ∧
      (∀ error, (root.write path value).2 = .error error ↔
        error.path = path ∧ Refused root path error.fault) ∧
      ∀ location component rest node, path = location ++ component :: rest →
        root.get? location = some node → node.isContainer = false → node ≠ .null →
        (root.write path value).1 = root ∧ (root.write path value).2 ≠ .ok () := by
  refine ⟨write_ok_iff value, write_error_iff value, ?_⟩
  intro location component rest node way found leaf not_null
  exact leaf_stays value way found leaf not_null

theorem bad_index_before_a_number :
    ((dictionary [("a", number (.integer 1))]).write
        [.property "a", .index 2, .index (-1), .index 1000000] null).2 =
      .error ⟨[.property "a", .index 2, .index (-1), .index 1000000], .negativeIndex (-1)⟩ ∧
    ((dictionary [("a", number (.integer 1))]).write [.property "a", .property "b"] null).1 =
      dictionary [("a", number (.integer 1))] := by
  have first : KeyPath.AfterSoundIndices
      [.property "a", .index 2, .index (-1), .index 1000000] (-1) :=
    ⟨[.property "a", .index 2], [.index 1000000], rfl, by simp⟩
  exact ⟨((write_verdict _ _ _).2.1 _).mpr ⟨rfl, .negative (by decide) first (by decide)⟩,
    ((write_verdict _ _ _).2.2 [.property "a"] (.property "b") [] _ rfl rfl rfl (by simp)).1⟩

end Node
end DocAudit
