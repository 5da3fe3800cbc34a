import DocAudit.Proofs.Trees

/- A write taken one component at a time. From the node it stands on it goes on with a child, which
   is created where it is missing or a null element, and it puts back what becomes of that child:
   `place_fits` says so for dictionaries and arrays alike. Which child that is, and how the node reads
   with a child put back, is settled here once for both kinds of container, so that the proofs about
   whole paths need not look at entries and elements again. -/
namespace DocAudit

def Component.NonNegative : Component → Prop
  | .property _ => True
  | .index i => 0 ≤ i

namespace Node

variable {node child : Node} {component : Component}

def childFor : Node → Component → KeyPath → Node
  | .dictionary entries, .property key, rest => entryFor entries key rest
  | .array items, .index i, rest => elementFor items i.toNat rest
  | _, _, rest => emptyFor rest

def withChild : Node → Component → Node → Node
  | .dictionary entries, .property key, child => .dictionary (Entries.insert key child entries)
  | .array items, .index i, child => .array (setElement items i.toNat child)
  | node, _, _ => node

/-- The places that are filled with nulls when a child is put back beyond the end of an array. -/
def Filled (node : Node) (component other : Component) : Prop :=
  ∃ (items : List Node) (i j : Int), node = .array items ∧ component = .index i ∧
    other = .index j ∧ items.length ≤ j ∧ j < i

theorem container_cases (fits : node.kind = component.container) :
    (∃ entries key, node = .dictionary entries ∧ component = .property key) ∨
      ∃ items i, node = .array items ∧ component = .index i := by
  cases component with
  | property key => cases node <;> simp [kind, Component.container] at fits ⊢
  | index i => cases node <;> simp [kind, Component.container] at fits ⊢

theorem counted_cases (fits : node.kind = component.container)
    (nonnegative : component.NonNegative) :
    (∃ entries key, node = .dictionary entries ∧ component = .property key) ∨
      ∃ items, ∃ n : Nat, node = .array items ∧ component = .index n := by
  rcases container_cases fits with dictionary | ⟨items, i, rfl, rfl⟩
  · exact Or.inl dictionary
  · exact Or.inr ⟨items, i.toNat, rfl, by rw [Int.toNat_of_nonneg nonnegative]⟩

theorem place_fits (fits : node.kind = component.container) (rest : KeyPath) (value : Node) :
    place node (component :: rest) value =
      (node.withChild component (place (node.childFor component rest) rest value).1,
        (place (node.childFor component rest) rest value).2) := by
  rcases container_cases fits with ⟨entries, key, rfl, rfl⟩ | ⟨items, i, rfl, rfl⟩ <;> rfl

theorem place_unfit (unfit : node.kind ≠ component.container) (rest : KeyPath) (value : Node) :
    place node (component :: rest) value =
      (node, .error (.typeMismatch component.container node.kind)) := by
  cases component <;> cases node <;> first | rfl | exact absurd rfl unfit

theorem kind_with_child (node : Node) (component : Component) (child : Node) :
    (node.withChild component child).kind = node.kind := by
  cases node <;> cases component <;> rfl

def filledTo (items : List Node) (length : Nat) : List Node :=
  items ++ List.replicate (length - items.length) .null

theorem set_element_eq (items : List Node) (i : Nat) (x : Node) :
    setElement items i x = (filledTo items (i + 1)).set i x := by
  unfold setElement filledTo
  split
  next inside =>
    have nothing : i + 1 - items.length = 0 := by omega
    simp [nothing]
  next beyond =>
    have one_more : i + 1 - items.length = (i - items.length) + 1 := by omega
    rw [one_more, List.replicate_succ', List.set_append_right _ _ (by omega)]
    rw [List.set_append_right _ _ (by simp)]
    simp

theorem filled_to_length (items : List Node) (length : Nat) :
    (filledTo items length).length = max items.length length := by
  simp only [filledTo, List.length_append, List.length_replicate]
  omega

theorem get_filled_to (items : List Node) (length j : Nat) :
    (filledTo items length)[j]? =
      if items.length ≤ j ∧ j < length then some .null else items[j]? := by
  unfold filledTo
  by_cases old : j < items.length
  · have kept : ¬ (items.length ≤ j ∧ j < length) := by omega
    rw [List.getElem?_append_left old, if_neg kept]
  · rw [List.getElem?_append_right (by omega), List.getElem?_replicate]
    rw [List.getElem?_eq_none (l := items) (by omega)]
    have same : j - items.length < length - items.length ↔ items.length ≤ j ∧ j < length := by
      omega
    simp only [same]

theorem filled_to_twice (items : List Node) (m n : Nat) :
    filledTo (filledTo items m) n = filledTo items (max m n) := by
  rw [filledTo, filled_to_length, filledTo, filledTo, List.append_assoc,
    List.replicate_append_replicate]
  congr 2
  omega

theorem filled_to_set {items : List Node} {i : Nat} (inside : i < items.length) (x : Node)
    (length : Nat) : filledTo (items.set i x) length = (filledTo items length).set i x := by
  rw [filledTo, filledTo, List.length_set, List.set_append_left _ _ inside]

theorem set_element_length (items : List Node) (i : Nat) (x : Node) :
    (setElement items i x).length = max items.length (i + 1) := by
  rw [set_element_eq, List.length_set, filled_to_length]

theorem get_set_element (items : List Node) (i j : Nat) (x : Node) :
    (setElement items i x)[j]? =
      if j = i then some x
      else if items.length ≤ j ∧ j < i then some .null else items[j]? := by
  rw [set_element_eq, List.getElem?_set, filled_to_length, get_filled_to]
  by_cases same : j = i
  · have inside : i < max items.length (i + 1) := by omega
    simp [same, inside]
  · have filled : (items.length ≤ j ∧ j < i + 1) ↔ items.length ≤ j ∧ j < i := by omega
    simp only [same, Ne.symm same, filled, ↓reduceIte]

theorem set_elements (items : List Node) (i j : Nat) (x y : Node) :
    setElement (setElement items i x) j y =
      ((filledTo items (max (i + 1) (j + 1))).set i x).set j y := by
  have inside : i < (filledTo items (i + 1)).length := by
    rw [filled_to_length]
    omega
  rw [set_element_eq _ j, set_element_eq, filled_to_set inside, filled_to_twice]

theorem set_element_comm {i j : Nat} (differ : i ≠ j) (items : List Node) (x y : Node) :
    setElement (setElement items i x) j y = setElement (setElement items j y) i x := by
  rw [set_elements, set_elements, Nat.max_comm, List.set_comm _ _ differ]

theorem set_element_twice (items : List Node) (i : Nat) (x y : Node) :
    setElement (setElement items i x) i y = setElement items i y := by
  rw [set_elements, List.set_set, Nat.max_self, ← set_element_eq]

theorem empty_for_fits (component : Component) (rest : KeyPath) :
    (emptyFor (component :: rest)).kind = component.container := by
  cases component <;> rfl

theorem empty_for_child (component : Component) (rest : KeyPath) :
    (emptyFor (component :: rest)).childFor component rest = emptyFor rest := by
  cases component <;> simp [emptyFor, childFor, entryFor, elementFor, Entries.find?]

theorem empty_for_missing (path other : KeyPath) (component : Component) :
    (emptyFor path).get? (component :: other) = none := by
  rcases path with _ | ⟨_ | _, _⟩ <;> cases component <;> simp [emptyFor, get?, Entries.find?]

theorem null_missing {path : KeyPath} (below : path ≠ []) : Node.null.get? path = none := by
  cases path with
  | nil => exact absurd rfl below
  | cons component rest => cases component <;> rfl

/-- There is no child below a component, or a null that is taken for a missing one. -/
def Vacant (node : Node) (component : Component) : Prop :=
  node.get? [component] = none ∨
    (∃ i, component = .index i) ∧ node.get? [component] = some .null

theorem child_for_vacant (fits : node.kind = component.container)
    (nonnegative : component.NonNegative) (vacant : Vacant node component)
    (rest : KeyPath) : node.childFor component rest = emptyFor rest := by
  rcases counted_cases fits nonnegative with ⟨entries, key, rfl, rfl⟩ | ⟨items, n, rfl, rfl⟩
  · simp only [Vacant, get_member, reduceCtorEq, exists_false, false_and, or_false] at vacant
    simp [childFor, entryFor, vacant]
  · simp only [Vacant, get_element] at vacant
    rcases vacant with missing | ⟨-, null⟩
    · simp [childFor, elementFor, missing]
    · simp [childFor, elementFor, null, isNull]

theorem child_for_taken (found : node.get? [component] = some child)
    (taken : ¬ Vacant node component) (rest : KeyPath) : node.childFor component rest = child := by
  rcases child_cases found with ⟨entries, key, rfl, rfl, entry⟩ | ⟨items, i, rfl, rfl, item⟩
  · simp [childFor, entryFor, entry]
  · have other : child ≠ .null := fun null => taken (.inr ⟨⟨_, rfl⟩, by rw [found, null]⟩)
    cases child <;> simp_all [childFor, elementFor, isNull]

theorem taken_child (taken : ¬ Vacant node component) :
    ∃ child, node.get? [component] = some child :=
  Option.ne_none_iff_exists'.mp fun missing => taken (.inl missing)

theorem taken_of_below {value : Node} {rest : KeyPath} (found : node.get? [component] = some child)
    (below : child.get? rest = some value) (further : rest ≠ []) : ¬ Vacant node component := by
  rintro (missing | ⟨-, null⟩)
  · rw [missing] at found
    cases found
  · cases Option.some.inj (found.symm.trans null)
    rw [null_missing further] at below
    cases below

theorem place_child_for {old : Node} {rest : KeyPath} (found : node.get? [component] = some child)
    (below : child.get? rest = some old) (value : Node) :
    place (node.childFor component rest) rest value = place child rest value := by
  cases rest with
  | nil => rfl
  | cons next rest =>
    rw [child_for_taken found (taken_of_below found below (List.cons_ne_nil next rest))]

theorem existing_nonnegative {path : KeyPath} {root old : Node}
    (found : root.get? path = some old) : ∀ component ∈ path, component.NonNegative := by
  induction path generalizing root with
  | nil => simp
  | cons component rest ih =>
    rw [get_cons] at found
    obtain ⟨child, first, later⟩ := Option.bind_eq_some_iff.mp found
    refine List.forall_mem_cons.mpr ⟨?_, ih later⟩
    rcases child_cases first with ⟨_, key, -, rfl, -⟩ | ⟨_, i, -, rfl, -⟩
    · trivial
    · exact Int.natCast_nonneg i

theorem with_child_found (found : node.get? [component] = some child) :
    node.withChild component child = node := by
  rcases child_cases found with ⟨entries, key, rfl, rfl, entry⟩ | ⟨items, i, rfl, rfl, item⟩
  · rw [withChild, Entries.insert_found entry]
  · obtain ⟨inside, rfl⟩ := List.getElem?_eq_some_iff.mp item
    simp only [withChild, setElement, Int.toNat_natCast, inside, ↓reduceIte,
      List.set_getElem_self]

theorem get_child_for (fits : node.kind = component.container)
    (nonnegative : component.NonNegative) (rest : KeyPath) {other : KeyPath} (below : other ≠ []) :
    (node.childFor component rest).get? other = node.get? (component :: other) := by
  rw [get_cons node component other]
  by_cases vacant : Vacant node component
  · obtain ⟨first, later, rfl⟩ := List.exists_cons_of_ne_nil below
    rw [child_for_vacant fits nonnegative vacant, empty_for_missing]
    rcases vacant with missing | ⟨-, null⟩
    · rw [missing, Option.bind_none]
    · rw [null, Option.bind_some, null_missing below]
  · obtain ⟨child, found⟩ := taken_child vacant
    rw [child_for_taken found vacant, found, Option.bind_some]

theorem get_child (fits : node.kind = component.container)
    (nonnegative : component.NonNegative) (child : Node) (other : KeyPath) :
    (node.withChild component child).get? (component :: other) = child.get? other := by
  rcases container_cases fits with ⟨entries, key, rfl, rfl⟩ | ⟨items, i, rfl, rfl⟩
  · simp [withChild, get?, Entries.find_insert]
  · simp only [Component.NonNegative] at nonnegative
    simp [withChild, get?, nonnegative, get_set_element]

theorem get_beside {other : Component} (fits : node.kind = component.container)
    (nonnegative : component.NonNegative) (differ : other ≠ component)
    (unfilled : ¬ Filled node component other) (child : Node) (rest : KeyPath) :
    (node.withChild component child).get? (other :: rest) = node.get? (other :: rest) := by
  rcases container_cases fits with ⟨entries, key, rfl, rfl⟩ | ⟨items, i, rfl, rfl⟩
  · cases other with
    | index j => rfl
    | property k =>
      have apart : k ≠ key := by simpa using differ
      simp [withChild, get?, Entries.find_insert, apart]
  · cases other with
    | property k => rfl
    | index j =>
      simp only [Component.NonNegative] at nonnegative
      by_cases counted : 0 ≤ j
      · have apart : j.toNat ≠ i.toNat := by
          intro same
          exact differ (by rw [show j = i by omega])
        have kept : ¬ (items.length ≤ j.toNat ∧ j.toNat < i.toNat) := by
          intro between
          exact unfilled ⟨items, i, j, rfl, rfl, rfl, by omega, by omega⟩
        simp only [withChild, get?, counted, ↓reduceIte, get_set_element, apart, kept]
      · simp only [withChild, get?, counted, ↓reduceIte]

theorem get_filled {other : Component} (filled : Filled node component other) (child : Node)
    (rest : KeyPath) :
    (node.withChild component child).get? (other :: rest) = Node.null.get? rest := by
  obtain ⟨items, i, j, rfl, rfl, rfl, beyond, before⟩ := filled
  have counted : 0 ≤ j := by omega
  have apart : j.toNat ≠ i.toNat := by omega
  have inside : items.length ≤ j.toNat ∧ j.toNat < i.toNat := by omega
  simp [withChild, get?, counted, get_set_element, apart, inside]

theorem filled_missing {other : Component} (filled : Filled node component other)
    (rest : KeyPath) : node.get? (other :: rest) = none := by
  obtain ⟨items, i, j, rfl, rfl, rfl, beyond, before⟩ := filled
  have outside : items[j.toNat]? = none := List.getElem?_eq_none (by omega)
  simp [get?, outside]

theorem unfilled_of_child (found : node.get? [component] = some child) (other : Component) :
    ¬ Filled node component other := by
  intro filled
  obtain ⟨items, i, j, rfl, rfl, rfl, beyond, before⟩ := filled
  have outside : items[i.toNat]? = none := List.getElem?_eq_none (by omega)
  simp [get?, outside] at found

theorem place_empty_for {path : KeyPath} (value : Node) :
    (place (emptyFor path) path value).2 = .ok () := by
  induction path with
  | nil => rfl
  | cons component rest ih =>
    rw [place_fits (empty_for_fits component rest), empty_for_child]
    exact ih

theorem check_array_index_ok_iff (n : Nat) :
    Limit.checkArrayIndex n = .ok () ↔ n < Limit.maxArraySize := by
  unfold Limit.checkArrayIndex Limit.sizeWithIndex Limit.maxArraySize Word.greatestUnsigned
  split
  next large =>
    simp only [reduceCtorEq, false_iff]
    omega
  next small =>
    simp only [true_iff]
    omega

theorem check_index_ok_iff (i : Int) :
    checkIndex i = .ok () ↔ 0 ≤ i ∧ i < Limit.maxArraySize := by
  unfold checkIndex
  split
  next negative =>
    simp only [reduceCtorEq, false_iff]
    omega
  next counted =>
    have limit := check_array_index_ok_iff i.toNat
    cases checked : Limit.checkArrayIndex i.toNat with
    | ok passed =>
      have below := limit.mp checked
      simp only [true_iff]
      omega
    | error error =>
      simp only [checked, reduceCtorEq, false_iff] at limit ⊢
      omega

theorem check_indices_ok_iff (path : KeyPath) :
    checkIndices path = .ok () ↔ ∀ i, Component.index i ∈ path → checkIndex i = .ok () := by
  induction path with
  | nil => simp [checkIndices]
  | cons component rest ih =>
    cases component with
    | property key => simp [checkIndices, ih]
    | index j =>
      simp only [checkIndices, List.mem_cons, Component.index.injEq, forall_eq_or_imp, ← ih]
      cases checkIndex j <;> simp

theorem check_path_ok_iff (path : KeyPath) :
    checkPath path = .ok () ↔ path.length ≤ Limit.maxPathLength ∧
      ∀ i, Component.index i ∈ path → checkIndex i = .ok () := by
  rw [← check_indices_ok_iff]
  unfold checkPath Limit.checkPathLength
  by_cases long : path.length > Limit.maxPathLength
  · have not_short : ¬ path.length ≤ Limit.maxPathLength := by omega
    simp [long, not_short]
  · simp [long, Nat.le_of_not_lt long]

theorem checked_indices {path : KeyPath} (checked : checkPath path = .ok ()) :
    ∀ i, Component.index i ∈ path → checkIndex i = .ok () :=
  ((check_path_ok_iff path).mp checked).2

theorem check_index_ok {i : Int} (checked : checkIndex i = .ok ()) : 0 ≤ i :=
  ((check_index_ok_iff i).mp checked).1

theorem checked_nonnegative {path : KeyPath} (checked : checkPath path = .ok ()) :
    ∀ component ∈ path, component.NonNegative := by
  intro component member
  cases component with
  | property key => trivial
  | index i => exact check_index_ok (checked_indices checked i member)

theorem write_eq (root : Node) (path : KeyPath) (value : Node) :
    root.write path value =
      match checkPath path with
      | .error fault => (root, .error ⟨path, fault⟩)
      | .ok () => ((place root path value).1, outcomeAt path (place root path value).2) := rfl

theorem outcome_at_ok {α : Type} {path : KeyPath} {outcome : Except EditFault α} {value : α} :
    outcomeAt path outcome = .ok value ↔ outcome = .ok value := by
  cases outcome <;> simp [outcomeAt]

theorem write_ok {root value after : Node} {path : KeyPath}
    (written : root.write path value = (after, .ok ())) :
    checkPath path = .ok () ∧ place root path value = (after, .ok ()) := by
  unfold write at written
  cases checked : checkPath path with
  | error fault => simp [checked] at written
  | ok passed =>
    simp only [checked] at written
    obtain ⟨tree, outcome⟩ := Prod.mk.inj written
    exact ⟨rfl, Prod.ext tree (outcome_at_ok.mp outcome)⟩

end Node
end DocAudit
