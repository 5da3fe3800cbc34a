import DocAudit.Proofs.Edit.Descent

/- A write as the sequence of its steps. The walk holds the whole tree at every point: the node it
   stands on, and above it the containers it came through, each with one place left open. A step
   before the last component creates the entry that is missing, fills the array up, or puts a
   container in the place of a null element, and hands on the child; the last step sets the value.
   Nothing is ever taken back. That a refused write leaves the tree as it was rests on this: a step
   that changes the tree hands on an empty container of the kind that the next component steps into,
   and from such a container no step is refused. -/
namespace DocAudit
namespace WriteWalk
open Node

/-- A container with the place of one child left open. -/
inductive Frame where
  | entry (entries : List (String × Node)) (key : String)
  | element (items : List Node) (i : Nat)

def Frame.close : Frame → Node → Node
  | .entry entries key, child => .dictionary (Entries.insert key child entries)
  | .element items i, child => .array (items.set i child)

structure Cursor where
  above : List Frame
  current : Node

def Cursor.tree (cursor : Cursor) : Node :=
  cursor.above.foldl (fun child frame => frame.close child) cursor.current

def descend : Node → Component → KeyPath → Except EditFault (Frame × Node)
  | .dictionary entries, .property key, rest =>
    .ok (.entry entries key, (Entries.find? key entries).getD (emptyFor rest))
  | .array items, .index i, rest =>
    match checkIndex i with
    | .error fault => .error fault
    | .ok () =>
      let filled := filledTo items (i.toNat + 1)
      let item := filled.getD i.toNat .null
      .ok (.element filled i.toNat, if item.isNull then emptyFor rest else item)
  | node, component, _ => .error (.typeMismatch component.container node.kind)

def put : Node → Component → Node → Except EditFault Node
  | .dictionary entries, .property key, value =>
    .ok (.dictionary (Entries.insert key value entries))
  | .array items, .index i, value =>
    match checkIndex i with
    | .error fault => .error fault
    | .ok () =>
      if i.toNat < items.length then .ok (.array (items.set i.toNat value))
      else .ok (.array (filledTo items i.toNat ++ [value]))
  | node, component, _ => .error (.typeMismatch component.container node.kind)

def step (value : Node) (cursor : Cursor) (component : Component) :
    KeyPath → Except EditFault Cursor
  | [] =>
    match put cursor.current component value with
    | .ok node => .ok ⟨cursor.above, node⟩
    | .error fault => .error fault
  | next :: rest =>
    match descend cursor.current component (next :: rest) with
    | .ok (frame, child) => .ok ⟨frame :: cursor.above, child⟩
    | .error fault => .error fault

structure Walk where
  trees : List Node
  outcome : Except EditFault Unit

def Walk.treeAfter (start : Node) (walk : Walk) : Node := walk.trees.getLast?.getD start

def walkFrom (value : Node) : Cursor → KeyPath → Walk
  | _, [] => ⟨[], .ok ()⟩
  | cursor, component :: rest =>
    match step value cursor component rest with
    | .error fault => ⟨[], .error fault⟩
    | .ok next =>
      let later := walkFrom value next rest
      ⟨next.tree :: later.trees, later.outcome⟩

/-- The walk of a whole write. The path is checked before the first step, and the empty path has
    one step, which puts the value in the place of the root. -/
def walk (root : Node) (path : KeyPath) (value : Node) : Walk :=
  match checkPath path with
  | .error fault => ⟨[], .error fault⟩
  | .ok () =>
    match path with
    | [] => ⟨[value], .ok ()⟩
    | component :: rest => walkFrom value ⟨[], root⟩ (component :: rest)

def Checked (path : KeyPath) : Prop := ∀ i, Component.index i ∈ path → checkIndex i = .ok ()

theorem checked_tail {component : Component} {rest : KeyPath}
    (checked : Checked (component :: rest)) : Checked rest :=
  fun i member => checked i (List.mem_cons_of_mem _ member)

theorem checked_head {component : Component} {rest : KeyPath}
    (checked : Checked (component :: rest)) : component.NonNegative := by
  cases component with
  | property key => trivial
  | index i => exact check_index_ok (checked i List.mem_cons_self)

theorem filled_item (items : List Node) (i : Nat) :
    (filledTo items (i + 1)).getD i .null = (items[i]?).getD .null := by
  rw [List.getD_eq_getElem?_getD, get_filled_to]
  split
  next beyond => rw [List.getElem?_eq_none beyond.1]; rfl
  next => rfl

theorem descend_fits {node : Node} {component : Component} {rest : KeyPath}
    (fits : node.kind = component.container) (checked : Checked (component :: rest)) :
    ∃ frame, descend node component rest = .ok (frame, node.childFor component rest) ∧
      ∀ child, frame.close child = node.withChild component child := by
  rcases container_cases fits with ⟨entries, key, rfl, rfl⟩ | ⟨items, i, rfl, rfl⟩
  · exact ⟨.entry entries key, rfl, fun child => rfl⟩
  · have passed := checked i List.mem_cons_self
    refine ⟨.element (filledTo items (i.toNat + 1)) i.toNat, ?_, fun child => ?_⟩
    · simp only [descend, passed, filled_item, childFor, elementFor]
      cases items[i.toNat]? <;> rfl
    · simp only [Frame.close, withChild, set_element_eq]

theorem descend_unfit {node : Node} {component : Component}
    (unfit : node.kind ≠ component.container) (rest : KeyPath) :
    descend node component rest = .error (.typeMismatch component.container node.kind) := by
  cases component <;> cases node <;> first | rfl | exact absurd rfl unfit

theorem put_fits {node : Node} {component : Component} (fits : node.kind = component.container)
    (checked : Checked [component]) (value : Node) :
    put node component value = .ok (node.withChild component value) := by
  rcases container_cases fits with ⟨entries, key, rfl, rfl⟩ | ⟨items, i, rfl, rfl⟩
  · rfl
  · have passed := checked i List.mem_cons_self
    simp only [put, passed, withChild, setElement, filledTo, List.append_assoc]
    split <;> rfl

theorem put_unfit {node : Node} {component : Component}
    (unfit : node.kind ≠ component.container) (value : Node) :
    put node component value = .error (.typeMismatch component.container node.kind) := by
  cases component <;> cases node <;> first | rfl | exact absurd rfl unfit

theorem tree_closed (frame : Frame) (above : List Frame) (child : Node) :
    Cursor.tree ⟨frame :: above, child⟩ = Cursor.tree ⟨above, frame.close child⟩ := rfl

theorem tree_after_step (start tree : Node) (later : Walk) :
    Walk.treeAfter start ⟨tree :: later.trees, later.outcome⟩ = later.treeAfter tree := by
  simp [Walk.treeAfter, List.getLast?_cons]

theorem walk_from_places (value : Node) (cursor : Cursor) {component : Component} {rest : KeyPath}
    (checked : Checked (component :: rest)) :
    (walkFrom value cursor (component :: rest)).treeAfter cursor.tree =
        Cursor.tree ⟨cursor.above, (place cursor.current (component :: rest) value).1⟩ ∧
      (walkFrom value cursor (component :: rest)).outcome =
        (place cursor.current (component :: rest) value).2 := by
  induction rest generalizing cursor component with
  | nil =>
    by_cases fits : cursor.current.kind = component.container
    · simp only [walkFrom, step, put_fits fits checked, place_fits fits, place]
      exact ⟨rfl, trivial⟩
    · simp only [walkFrom, step, put_unfit fits, place_unfit fits]
      exact ⟨rfl, trivial⟩
  | cons next rest ih =>
    by_cases fits : cursor.current.kind = component.container
    · obtain ⟨frame, descended, closed⟩ := descend_fits fits checked
      have onward := ih ⟨frame :: cursor.above, cursor.current.childFor component (next :: rest)⟩
        (checked_tail checked)
      rw [walkFrom, place_fits fits]
      simp only [step, descended, tree_after_step]
      rw [onward.1, onward.2, tree_closed, closed]
      exact ⟨rfl, rfl⟩
    · rw [walkFrom, place_unfit fits]
      simp only [step, descend_unfit fits]
      exact ⟨rfl, trivial⟩

theorem walk_from_created (value : Node) (above : List Frame) {path : KeyPath}
    (checked : Checked path) : (walkFrom value ⟨above, emptyFor path⟩ path).outcome = .ok () := by
  induction path generalizing above with
  | nil => rfl
  | cons component rest ih =>
    have fits := empty_for_fits component rest
    cases rest with
    | nil => simp only [walkFrom, step, put_fits fits checked]
    | cons next rest =>
      obtain ⟨frame, descended, -⟩ := descend_fits fits checked
      simp only [walkFrom, step, descended, empty_for_child]
      exact ih (frame :: above) (checked_tail checked)

theorem step_keeps_or_creates {value : Node} {cursor after : Cursor} {component next : Component}
    {rest : KeyPath} (checked : Checked (component :: next :: rest))
    (stepped : step value cursor component (next :: rest) = .ok after) :
    after.tree = cursor.tree ∨ after.current = emptyFor (next :: rest) := by
  by_cases fits : cursor.current.kind = component.container
  · obtain ⟨frame, descended, closed⟩ := descend_fits fits checked
    simp only [step, descended] at stepped
    cases stepped
    -- a child that is there is put back as it was
    by_cases vacant : Vacant cursor.current component
    · exact Or.inr (child_for_vacant fits (checked_head checked) vacant (next :: rest))
    · left
      obtain ⟨child, found⟩ := taken_child vacant
      rw [tree_closed, closed, child_for_taken found vacant, with_child_found found]
  · simp [step, descend_unfit fits] at stepped

theorem refused_walk_unchanged {value : Node} {cursor : Cursor} {path : KeyPath}
    {fault : EditFault} (checked : Checked path)
    (refused : (walkFrom value cursor path).outcome = .error fault) :
    ∀ tree ∈ (walkFrom value cursor path).trees, tree = cursor.tree := by
  induction path generalizing cursor with
  | nil => simp [walkFrom]
  | cons component rest ih =>
    cases stepped : step value cursor component rest with
    | error other => simp [walkFrom, stepped]
    | ok after =>
      simp only [walkFrom, stepped, List.mem_cons, forall_eq_or_imp] at refused ⊢
      cases rest with
      | nil => simp [walkFrom] at refused
      | cons next rest =>
        -- once a container has been created no later step can be refused
        rcases step_keeps_or_creates checked stepped with same | created
        · rw [← same]
          exact ⟨rfl, ih (checked_tail checked) refused⟩
        · have accepted := walk_from_created value after.above (checked_tail checked)
          rw [← created, refused] at accepted
          cases accepted

theorem write_walks (root : Node) (path : KeyPath) (value : Node) :
    root.write path value =
      ((walk root path value).treeAfter root, outcomeAt path (walk root path value).outcome) := by
  unfold write walk
  cases checked : checkPath path with
  | error fault => rfl
  | ok passed =>
    cases path with
    | nil => rfl
    | cons component rest =>
      obtain ⟨tree, outcome⟩ :=
        walk_from_places value ⟨[], root⟩ (checked_indices checked : Checked (component :: rest))
      have left : (walkFrom value ⟨[], root⟩ (component :: rest)).treeAfter root =
        (place root (component :: rest) value).1 := tree
      simp only [left, outcome]

/-- A write is the walk along its path, and leaves behind the tree of its last step. If a step is
    refused, none of the steps before it has changed the tree; so a write that fails, for this or
    because its path does not pass the check, leaves the tree as it was. -/
theorem refused_write_changes_nothing (root : Node) (path : KeyPath) (value : Node) :
    root.write path value =
        ((walk root path value).treeAfter root, outcomeAt path (walk root path value).outcome) ∧
      (∀ fault, (walk root path value).outcome = .error fault →
        ∀ tree ∈ (walk root path value).trees, tree = root) ∧
      ∀ error, (root.write path value).2 = .error error → (root.write path value).1 = root := by
  have unchanged : ∀ fault, (walk root path value).outcome = .error fault →
      ∀ tree ∈ (walk root path value).trees, tree = root := by
    unfold walk
    cases checked : checkPath path with
    | error fault => simp
    | ok passed =>
      cases path with
      | nil => simp
      | cons component rest =>
        intro fault refused
        exact refused_walk_unchanged (checked_indices checked) refused
  refine ⟨write_walks root path value, unchanged, fun error failed => ?_⟩
  rw [write_walks] at failed ⊢
  cases outcome : (walk root path value).outcome with
  | ok done => simp [outcome, outcomeAt] at failed
  | error fault =>
    show (walk root path value).treeAfter root = root
    cases last : (walk root path value).trees.getLast? with
    | none => simp [Walk.treeAfter, last]
    | some tree =>
      simp only [Walk.treeAfter, last, Option.getD_some]
      exact unchanged fault outcome tree (List.mem_of_getLast? last)

theorem refused_at_a_number :
    (walk (dictionary [("a", array [dictionary [("b", number (.integer 1))]])])
        [.property "a", .index 0, .property "b", .property "c"] null).outcome =
      .error (.typeMismatch .dictionary .number) ∧
    (walk (dictionary [("a", array [dictionary [("b", number (.integer 1))]])])
        [.property "a", .index 0, .property "b", .property "c"] null).trees =
      List.replicate 3 (dictionary [("a", array [dictionary [("b", number (.integer 1))]])]) ∧
    ((dictionary [("a", array [dictionary [("b", number (.integer 1))]])]).write
        [.property "a", .index 0, .property "b", .property "c"] null).1 =
      dictionary [("a", array [dictionary [("b", number (.integer 1))]])] :=
  ⟨rfl, rfl, (refused_write_changes_nothing _ _ _).2.2 _ rfl⟩

end WriteWalk
end DocAudit
