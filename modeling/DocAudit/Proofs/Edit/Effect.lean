import DocAudit.Proofs.Edit.Descent

/- What a write does to the whole tree, location by location. At and below the path stands the value;
   on the way to it stand the containers that its components step into, each with what it held
   before; beside the path everything reads as before, but for the nulls with which an array was
   filled up. -/
namespace DocAudit

def KeyPath.Diverge (p q : KeyPath) : Prop := ¬ p <+: q ∧ ¬ q <+: p

namespace Node

def entriesAt (root : Node) (location : KeyPath) : List (String × Node) :=
  ((root.get? location).bind entries?).getD []

def itemsAt (root : Node) (location : KeyPath) : List Node :=
  ((root.get? location).bind items?).getD []

/-- The places beside a path that a write fills with nulls: in an array on its way, from where the
    array ended up to the index of the path. -/
def Appended (root : Node) (path location : KeyPath) : Prop :=
  ∃ (shared rest : KeyPath) (i j : Int), path = shared ++ .index i :: rest ∧
    location = shared ++ [.index j] ∧ (root.itemsAt shared).length ≤ j ∧ j < i

/-- What is found on the way after a write: the container that the next component steps into, with
    the old keys and that key, or long enough for that index. -/
def Entered (root : Node) (location : KeyPath) (component : Component) (found : Option Node) :
    Prop :=
  match component with
  | .property key => ∃ entries, found = some (.dictionary entries) ∧
      ∀ k, k ∈ Entries.keys entries ↔ k = key ∨ k ∈ Entries.keys (root.entriesAt location)
  | .index i => ∃ items, found = some (.array items) ∧
      (items.length : Int) = max ((root.itemsAt location).length : Int) (i + 1)

structure WriteEffect (root : Node) (path : KeyPath) (value after : Node) : Prop where
  below : ∀ rest, after.get? (path ++ rest) = value.get? rest
  on_the_way : ∀ shared component rest, path = shared ++ component :: rest →
    Entered root shared component (after.get? shared)
  kept : ∀ location old, KeyPath.Diverge path location → root.get? location = some old →
    after.get? location = some old
  appended : ∀ location, Appended root path location → after.get? location = some .null
  still_missing : ∀ location, KeyPath.Diverge path location → root.get? location = none →
    ¬ Appended root path location → after.get? location = none

theorem diverge_cons {component : Component} {rest location : KeyPath}
    (diverge : KeyPath.Diverge (component :: rest) location) :
    ∃ first later, location = first :: later ∧
      (first = component → later ≠ [] ∧ KeyPath.Diverge rest later) := by
  cases location with
  | nil => exact absurd List.nil_prefix diverge.2
  | cons first later =>
    refine ⟨first, later, rfl, ?_⟩
    rintro rfl
    have below : KeyPath.Diverge rest later := by
      simpa [KeyPath.Diverge, List.cons_prefix_cons] using diverge
    refine ⟨?_, below⟩
    rintro rfl
    exact below.2 List.nil_prefix

section step
variable {node child value : Node} {component : Component} {rest : KeyPath}

theorem part_at_child_for {α : Type} (part : Node → Option (List α)) (of_null : part null = none)
    (of_dictionary : (part (dictionary [])).getD [] = []) (of_array : (part (array [])).getD [] = [])
    (fits : node.kind = component.container) (nonnegative : component.NonNegative)
    (location : KeyPath) :
    (((node.childFor component rest).get? location).bind part).getD [] =
      ((node.get? (component :: location)).bind part).getD [] := by
  by_cases here : location = []
  · subst here
    have created : (part (emptyFor rest)).getD [] = [] := by
      rcases rest with _ | ⟨_ | _, _⟩
      · rw [emptyFor, of_null]
        rfl
      · exact of_dictionary
      · exact of_array
    -- an empty container has as little of the part as the child that is missing
    by_cases vacant : Vacant node component
    · rw [child_for_vacant fits nonnegative vacant]
      rcases vacant with missing | ⟨-, null⟩
      · rw [missing]
        exact created
      · rw [null, Option.bind_some, of_null]
        exact created
    · obtain ⟨child, found⟩ := taken_child vacant
      rw [child_for_taken found vacant, found]
      rfl
  · rw [get_child_for fits nonnegative rest here]

theorem items_at_child_for (fits : node.kind = component.container)
    (nonnegative : component.NonNegative) (location : KeyPath) :
    (node.childFor component rest).itemsAt location = node.itemsAt (component :: location) :=
  part_at_child_for items? rfl rfl rfl fits nonnegative location

theorem entries_at_child_for (fits : node.kind = component.container)
    (nonnegative : component.NonNegative) (location : KeyPath) :
    (node.childFor component rest).entriesAt location =
      node.entriesAt (component :: location) :=
  part_at_child_for entries? rfl rfl rfl fits nonnegative location

theorem entered_here (fits : node.kind = component.container)
    (nonnegative : component.NonNegative) (child : Node) :
    Entered node [] component (some (node.withChild component child)) := by
  rcases container_cases fits with ⟨entries, key, rfl, rfl⟩ | ⟨items, i, rfl, rfl⟩
  · refine ⟨Entries.insert key child entries, rfl, fun k => ?_⟩
    simp [Entries.keys_insert, entriesAt, get?, entries?]
  · refine ⟨setElement items i.toNat child, rfl, ?_⟩
    have counted : 0 ≤ i := nonnegative
    simp only [set_element_length, itemsAt, get?, items?, Option.bind_some, Option.getD_some]
    omega

theorem entered_below (fits : node.kind = component.container)
    (nonnegative : component.NonNegative) {location : KeyPath} {next : Component}
    {found : Option Node} (entered : Entered (node.childFor component rest) location next found) :
    Entered node (component :: location) next found := by
  cases next <;>
    simpa only [Entered, items_at_child_for fits nonnegative,
      entries_at_child_for fits nonnegative] using entered

theorem appended_below (fits : node.kind = component.container)
    (nonnegative : component.NonNegative) (location : KeyPath) :
    Appended node (component :: rest) (component :: location) ↔
      Appended (node.childFor component rest) rest location := by
  constructor
  · rintro ⟨shared, later, i, j, path, place, beyond, before⟩
    cases shared with
    | nil =>
      simp only [List.nil_append, List.cons.injEq] at path place
      have same : Component.index i = .index j := path.1.symm.trans place.1
      cases same
      omega
    | cons first shared =>
      simp only [List.cons_append, List.cons.injEq] at path place
      obtain ⟨rfl, path⟩ := path
      have same_items : (node.childFor component rest).itemsAt shared =
          node.itemsAt (component :: shared) := items_at_child_for fits nonnegative shared
      rw [← same_items] at beyond
      exact ⟨shared, later, i, j, path, place.2, beyond, before⟩
  · rintro ⟨shared, later, i, j, path, place, beyond, before⟩
    rw [items_at_child_for fits nonnegative] at beyond
    exact ⟨component :: shared, later, i, j, by rw [path]; rfl, by rw [place]; rfl, beyond, before⟩

theorem appended_here {first : Component} {later : KeyPath}
    (fits : node.kind = component.container) (differ : first ≠ component) :
    Appended node (component :: rest) (first :: later) ↔
      Filled node component first ∧ later = [] := by
  constructor
  · rintro ⟨shared, _, i, j, path, place, beyond, before⟩
    -- the location leaves the path at once, so it is this array that is filled up
    cases shared with
    | nil =>
      simp only [List.nil_append, List.cons.injEq] at path place
      obtain ⟨rfl, -⟩ := path
      obtain ⟨rfl, rfl⟩ := place
      rcases container_cases fits with ⟨_, _, _, wrong⟩ | ⟨items, _, rfl, -⟩
      · cases wrong
      · exact ⟨⟨items, i, j, rfl, rfl, rfl, beyond, before⟩, rfl⟩
    | cons other shared =>
      simp only [List.cons_append, List.cons.injEq] at path place
      exact absurd (place.1.trans path.1.symm) differ
  · rintro ⟨⟨items, i, j, rfl, rfl, rfl, beyond, before⟩, rfl⟩
    exact ⟨[], rest, i, j, rfl, rfl, beyond, before⟩

theorem effect_step (fits : node.kind = component.container)
    (nonnegative : component.NonNegative)
    (effect : WriteEffect (node.childFor component rest) rest value child) :
    WriteEffect node (component :: rest) value (node.withChild component child) where
  below := by
    intro later
    rw [List.cons_append, get_child fits nonnegative]
    exact effect.below later
  on_the_way := by
    intro shared next later path
    cases shared with
    | nil =>
      simp only [List.nil_append, List.cons.injEq] at path
      obtain ⟨rfl, rfl⟩ := path
      exact entered_here fits nonnegative child
    | cons first shared =>
      simp only [List.cons_append, List.cons.injEq] at path
      obtain ⟨rfl, path⟩ := path
      rw [get_child fits nonnegative]
      exact entered_below fits nonnegative (effect.on_the_way shared next later path)
  kept := by
    intro location old diverge found
    obtain ⟨first, later, rfl, shared⟩ := diverge_cons diverge
    by_cases same : first = component
    · subst same
      obtain ⟨strictly, diverge⟩ := shared rfl
      rw [get_child fits nonnegative]
      rw [← get_child_for fits nonnegative rest strictly] at found
      exact effect.kept later old diverge found
    -- a place that is filled up had nothing in it before
    · have unfilled : ¬ Filled node component first := by
        intro filled
        rw [filled_missing filled later] at found
        cases found
      rw [get_beside fits nonnegative same unfilled, found]
  appended := by
    intro location appended
    obtain ⟨first, later, rfl⟩ : ∃ first later, location = first :: later := by
      obtain ⟨shared, _, _, j, -, rfl, -⟩ := appended
      exact List.exists_cons_of_ne_nil (by simp)
    by_cases same : first = component
    · subst same
      rw [get_child fits nonnegative]
      exact effect.appended later ((appended_below fits nonnegative later).mp appended)
    · obtain ⟨filled, rfl⟩ := (appended_here fits same).mp appended
      rw [get_filled filled]
      rfl
  still_missing := by
    intro location diverge missing not_appended
    obtain ⟨first, later, rfl, shared⟩ := diverge_cons diverge
    by_cases same : first = component
    · subst same
      obtain ⟨strictly, diverge⟩ := shared rfl
      rw [appended_below fits nonnegative] at not_appended
      rw [get_child fits nonnegative]
      rw [← get_child_for fits nonnegative rest strictly] at missing
      exact effect.still_missing later diverge missing not_appended
    · rw [appended_here fits same] at not_appended
      by_cases filled : Filled node component first
      · rw [get_filled filled]
        exact null_missing fun last => not_appended ⟨filled, last⟩
      · rw [get_beside fits nonnegative same filled, missing]

end step

theorem place_effect {path : KeyPath} (nonnegative : ∀ component ∈ path, component.NonNegative)
    {root value after : Node} (placed : place root path value = (after, .ok ())) :
    WriteEffect root path value after := by
  induction path generalizing root after with
  | nil =>
    cases placed
    -- every location lies at or below the root, so only `below` says anything
    have none_diverges : ∀ location, ¬ KeyPath.Diverge [] location := by
      intro location diverge
      exact diverge.1 List.nil_prefix
    exact
      { below := fun rest => rfl
        on_the_way := by simp
        kept := fun location old diverge => absurd diverge (none_diverges location)
        appended := by
          rintro location ⟨shared, rest, i, j, path, -⟩
          simp at path
        still_missing := fun location diverge => absurd diverge (none_diverges location) }
  | cons component rest ih =>
    obtain ⟨counted, rest_counted⟩ := List.forall_mem_cons.mp nonnegative
    by_cases fits : root.kind = component.container
    · rw [place_fits fits] at placed
      obtain ⟨rfl, outcome⟩ := Prod.mk.inj placed
      exact effect_step fits counted (ih rest_counted (Prod.ext rfl outcome))
    · rw [place_unfit fits] at placed
      cases placed

/-- How the tree that a write leaves behind reads at every location. -/
theorem write_effect {root value after : Node} {path : KeyPath}
    (written : root.write path value = (after, .ok ())) : WriteEffect root path value after :=
  place_effect (checked_nonnegative (write_ok written).1) (write_ok written).2

theorem effect_of_filling_and_creating :
    (dictionary [("a", array [.boolean true, null]), ("b", null)]).write
        [.property "a", .index 3, .property "c", .index 1] (.string "x") =
      (dictionary [("a", array [.boolean true, null, null,
        .dictionary [("c", array [null, .string "x"])]]), ("b", null)], .ok ()) ∧
    WriteEffect (dictionary [("a", array [.boolean true, null]), ("b", null)])
      [.property "a", .index 3, .property "c", .index 1] (.string "x")
      (dictionary [("a", array [.boolean true, null, null,
        .dictionary [("c", array [null, .string "x"])]]), ("b", null)]) :=
  ⟨rfl, write_effect rfl⟩

end Node
end DocAudit
