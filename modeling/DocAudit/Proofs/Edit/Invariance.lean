import DocAudit.Proofs.Edit.Removal

/- What holds of every node of a tree and is kept where a node gets a child back or loses one holds
   of every node after an edit, be it carried out or refused. The order of the keys is of this
   kind. -/
namespace DocAudit
namespace Node

def IndexChecked (component : Component) : Prop :=
  ∀ i, component = .index i → checkIndex i = .ok ()

/-- Kept by each step of an edit whose path has been checked. What a node gets back below a component
    is a container in which the edit went on, or else the value that it set there, which may be
    open to some components only. -/
structure KeptByEdits (holds : Node → Prop) (settable : Component → Prop) : Prop where
  created : ∀ path, holds (emptyFor path)
  with_child : ∀ node component child, IndexChecked component →
    settable component ∨ child.isContainer = true → holds node →
    holds (node.withChild component child)
  without_child : ∀ node component, holds node → holds (node.withoutChild component)

variable {holds : Node → Prop} {settable : Component → Prop} {node child : Node}

theorem checked_components {path : KeyPath} (checked : checkPath path = .ok ()) :
    ∀ component ∈ path, IndexChecked component := by
  intro component member i same
  subst same
  exact checked_indices checked i member

theorem IndexChecked.nonnegative {component : Component} (checked : IndexChecked component) :
    component.NonNegative := by
  cases component with
  | property key => trivial
  | index i => exact check_index_ok (checked i rfl)

theorem mem_set_element {items : List Node} {i : Nat} {value item : Node}
    (member : item ∈ setElement items i value) : item = value ∨ item = .null ∨ item ∈ items := by
  unfold setElement at member
  split at member
  · rcases List.mem_or_eq_of_mem_set member with old | new
    · exact Or.inr (Or.inr old)
    · exact Or.inl new
  · rcases List.mem_append.mp member with old | added
    · exact Or.inr (Or.inr old)
    · rcases List.mem_append.mp added with filling | last
      · exact Or.inr (Or.inl (List.eq_of_mem_replicate filling))
      · exact Or.inl (List.mem_singleton.mp last)

theorem everywhere_with_child (component : Component)
    (here : holds (node.withChild component child)) (null : holds .null)
    (below : node.Everywhere holds) (child_below : child.Everywhere holds) :
    (node.withChild component child).Everywhere holds := by
  cases node <;> cases component <;> try exact below
  case dictionary.property entries key =>
    rw [everywhere_dictionary_iff] at below
    refine (everywhere_dictionary_iff _).mpr ⟨here, fun entry member => ?_⟩
    rcases Entries.mem_insert member with new | old
    · rw [new]
      exact child_below
    · exact below.2 entry old
  case array.index items i =>
    rw [everywhere_array_iff] at below
    refine (everywhere_array_iff _).mpr ⟨here, fun item member => ?_⟩
    rcases mem_set_element member with new | filling | old
    · rw [new]
      exact child_below
    · rw [filling]
      exact null
    · exact below.2 item old

theorem everywhere_without_child (component : Component)
    (here : holds (node.withoutChild component)) (below : node.Everywhere holds) :
    (node.withoutChild component).Everywhere holds := by
  cases node <;> cases component <;> try exact below
  case dictionary.property entries key =>
    rw [everywhere_dictionary_iff] at below
    refine (everywhere_dictionary_iff _).mpr ⟨here, fun entry member => ?_⟩
    exact below.2 entry (List.mem_filter.mp member).1
  case array.index items i =>
    rw [everywhere_array_iff] at below
    refine (everywhere_array_iff _).mpr ⟨here, fun item member => ?_⟩
    exact below.2 item (List.mem_of_mem_eraseIdx member)

theorem everywhere_empty_for (kept : KeptByEdits holds settable) (path : KeyPath) :
    (emptyFor path).Everywhere holds := by
  have here := kept.created path
  rcases path with _ | ⟨_ | _, _⟩
  · exact here
  · exact ⟨here, trivial⟩
  · exact ⟨here, trivial⟩

theorem everywhere_child_for (kept : KeptByEdits holds settable) {component : Component}
    (fits : node.kind = component.container) (nonnegative : component.NonNegative)
    (below : node.Everywhere holds) (rest : KeyPath) :
    (node.childFor component rest).Everywhere holds := by
  by_cases vacant : Vacant node component
  · rw [child_for_vacant fits nonnegative vacant]
    exact everywhere_empty_for kept rest
  · obtain ⟨child, found⟩ := taken_child vacant
    rw [child_for_taken found vacant]
    exact everywhere_child below found

section inner
variable {component next : Component} {rest : KeyPath}

theorem is_container (fits : node.kind = component.container) : node.isContainer = true := by
  rcases container_cases fits with ⟨entries, key, rfl, rfl⟩ | ⟨items, i, rfl, rfl⟩ <;> rfl

theorem kind_place (fits : node.kind = component.container) (value : Node) :
    (place node (component :: rest) value).1.kind = component.container := by
  rw [place_fits fits, kind_with_child, fits]

theorem kind_withdraw (fits : node.kind = component.container)
    (nonnegative : component.NonNegative) :
    (withdraw node (component :: rest)).1.kind = component.container := by
  cases rest with
  | nil =>
    rcases container_cases fits with ⟨entries, key, rfl, rfl⟩ | ⟨items, i, rfl, rfl⟩ <;> rfl
  | cons next rest =>
    by_cases vacant : Vacant node component
    · rw [withdraw_vacant fits nonnegative vacant, fits]
    · obtain ⟨child, found⟩ := taken_child vacant
      rw [withdraw_taken found vacant, kind_with_child, fits]

theorem placed_below (fits : node.kind = component.container)
    (nonnegative : component.NonNegative) (value : Node) :
    (place (node.childFor component (next :: rest)) (next :: rest) value).1.isContainer = true ∨
      node.withChild component
        (place (node.childFor component (next :: rest)) (next :: rest) value).1 = node := by
  by_cases child_fits : (node.childFor component (next :: rest)).kind = next.container
  · exact .inl (is_container (kind_place child_fits value))
  · by_cases vacant : Vacant node component
    · rw [child_for_vacant fits nonnegative vacant] at child_fits
      exact absurd (empty_for_fits next rest) child_fits
    · obtain ⟨child, found⟩ := taken_child vacant
      rw [place_unfit child_fits, child_for_taken found vacant, with_child_found found]
      exact .inr rfl

theorem withdrawn_below (found : node.get? [component] = some child)
    (nonnegative : next.NonNegative) :
    (withdraw child (next :: rest)).1.isContainer = true ∨
      node.withChild component (withdraw child (next :: rest)).1 = node := by
  by_cases child_fits : child.kind = next.container
  · exact .inl (is_container (kind_withdraw child_fits nonnegative))
  · rw [withdraw_unfit child_fits, with_child_found found]
    exact .inr rfl

end inner

section path
variable {path : KeyPath}

theorem place_everywhere (kept : KeptByEdits holds settable)
    (checked : ∀ component ∈ path, IndexChecked component)
    (last : ∀ component, path.getLast? = some component → settable component) {value : Node}
    (value_below : value.Everywhere holds) (below : node.Everywhere holds) :
    (place node path value).1.Everywhere holds := by
  induction path generalizing node with
  | nil => exact value_below
  | cons component rest ih =>
    obtain ⟨here, rest_checked⟩ := List.forall_mem_cons.mp checked
    by_cases fits : node.kind = component.container
    case neg =>
      rw [place_unfit fits]
      exact below
    rw [place_fits fits]
    have child_below := everywhere_child_for kept fits here.nonnegative below rest
    cases rest with
    | nil =>
      refine everywhere_with_child component ?_ (kept.created []) below value_below
      exact kept.with_child node component _ here (.inl (last component rfl)) (holds_here below)
    | cons next rest =>
      -- below a component the edit left a container, or else it changed nothing
      rcases placed_below fits here.nonnegative value with container | unchanged
      · refine everywhere_with_child component ?_ (kept.created []) below ?_
        · exact kept.with_child node component _ here (.inr container) (holds_here below)
        · exact ih rest_checked (fun component => last component) child_below
      · rw [unchanged]
        exact below

theorem withdraw_everywhere (kept : KeptByEdits holds settable)
    (checked : ∀ component ∈ path, IndexChecked component) (below : node.Everywhere holds) :
    (withdraw node path).1.Everywhere holds := by
  induction path generalizing node with
  | nil => exact kept.created []
  | cons component rest ih =>
    obtain ⟨here, rest_checked⟩ := List.forall_mem_cons.mp checked
    by_cases fits : node.kind = component.container
    case neg =>
      rw [withdraw_unfit fits]
      exact below
    cases rest with
    | nil =>
      rw [withdraw_last_tree fits]
      exact everywhere_without_child component
        (kept.without_child node component (holds_here below)) below
    | cons next rest =>
      by_cases vacant : Vacant node component
      · rw [withdraw_vacant fits here.nonnegative vacant]
        exact below
      · obtain ⟨child, found⟩ := taken_child vacant
        have next_checked := (List.forall_mem_cons.mp rest_checked).1
        rw [withdraw_taken found vacant]
        rcases withdrawn_below found next_checked.nonnegative with container | unchanged
        · refine everywhere_with_child component ?_ (kept.created []) below ?_
          · exact kept.with_child node component _ here (.inr container) (holds_here below)
          · exact ih rest_checked (everywhere_child below found)
        · rw [unchanged]
          exact below

end path

theorem write_everywhere (kept : KeptByEdits holds settable) {root value : Node} {path : KeyPath}
    (last : ∀ component, path.getLast? = some component → settable component)
    (value_below : value.Everywhere holds) (below : root.Everywhere holds) :
    (root.write path value).1.Everywhere holds := by
  rw [write_eq]
  cases checked : checkPath path with
  | error fault => exact below
  | ok passed => exact place_everywhere kept (checked_components checked) last value_below below

theorem remove_everywhere (kept : KeptByEdits holds settable) {root : Node} (path : KeyPath)
    (below : root.Everywhere holds) : (root.remove path).1.Everywhere holds := by
  unfold remove
  cases checked : checkPath path with
  | error fault => exact below
  | ok passed => exact withdraw_everywhere kept (checked_components checked) below

end Node

inductive Edit where
  | write (path : KeyPath) (value : Node)
  | remove (path : KeyPath)

def Edit.treeAfter (root : Node) : Edit → Node
  | .write path value => (root.write path value).1
  | .remove path => (root.remove path).1

def Edit.trees (root : Node) (edits : List Edit) : List Node := edits.scanl Edit.treeAfter root

def Edit.Fits (holds : Node → Prop) (settable : Component → Prop) : Edit → Prop
  | .write path value => value.Everywhere holds ∧
      ∀ component, path.getLast? = some component → settable component
  | .remove _ => True

namespace Node
variable {holds : Node → Prop} {settable : Component → Prop} {node child : Node}

theorem edit_everywhere (kept : KeptByEdits holds settable) {root : Node} {edit : Edit}
    (fits : edit.Fits holds settable) (below : root.Everywhere holds) :
    (edit.treeAfter root).Everywhere holds := by
  cases edit with
  | write path value => exact write_everywhere kept fits.2 fits.1 below
  | remove path => exact remove_everywhere kept path below

theorem edits_everywhere (kept : KeptByEdits holds settable) {root : Node} {edits : List Edit}
    (fits : ∀ edit ∈ edits, edit.Fits holds settable) (below : root.Everywhere holds) :
    ∀ tree ∈ Edit.trees root edits, tree.Everywhere holds := by
  induction edits generalizing root with
  | nil =>
    intro tree member
    rw [List.mem_singleton.mp member]
    exact below
  | cons edit rest ih =>
    obtain ⟨first, later⟩ := List.forall_mem_cons.mp fits
    rw [Edit.trees, List.scanl_cons]
    exact List.forall_mem_cons.mpr ⟨below, ih later (edit_everywhere kept first below)⟩

theorem keys_ascend_with_child (component : Component) (ascending : KeysAscend node) :
    KeysAscend (node.withChild component child) := by
  cases node <;> cases component <;> try exact ascending
  case dictionary.property entries key => exact Entries.ascending_insert key child ascending

theorem keys_ascend_without_child (component : Component) (ascending : KeysAscend node) :
    KeysAscend (node.withoutChild component) := by
  cases node <;> cases component <;> try exact ascending
  case dictionary.property entries key => exact Entries.ascending_erase key ascending

theorem keys_ascend_kept : KeptByEdits KeysAscend fun _ => True where
  created := by
    intro path
    rcases path with _ | ⟨_ | _, _⟩ <;> simp [emptyFor, KeysAscend, Entries.Ascending]
  with_child := fun _ component _ _ _ => keys_ascend_with_child component
  without_child := fun _ component => keys_ascend_without_child component

theorem ordered_with_child (component : Component) (ordered : node.Ordered)
    (child_ordered : child.Ordered) : (node.withChild component child).Ordered := by
  rw [ordered_iff_everywhere] at *
  exact everywhere_with_child component (keys_ascend_with_child component (holds_here ordered))
    trivial ordered child_ordered

theorem ordered_without_child (component : Component) (ordered : node.Ordered) :
    (node.withoutChild component).Ordered := by
  rw [ordered_iff_everywhere] at *
  exact everywhere_without_child component
    (keys_ascend_without_child component (holds_here ordered)) ordered

theorem empty_for_ordered (path : KeyPath) : (emptyFor path).Ordered := by
  rw [ordered_iff_everywhere]
  exact everywhere_empty_for keys_ascend_kept path

theorem write_ordered {root value : Node} (path : KeyPath) (ordered : root.Ordered)
    (value_ordered : value.Ordered) : (root.write path value).1.Ordered := by
  rw [ordered_iff_everywhere] at *
  exact write_everywhere keys_ascend_kept (fun _ _ => trivial) value_ordered ordered

theorem remove_ordered {root : Node} (path : KeyPath) (ordered : root.Ordered) :
    (root.remove path).1.Ordered := by
  rw [ordered_iff_everywhere] at *
  exact remove_everywhere keys_ascend_kept path ordered

end Node
end DocAudit
