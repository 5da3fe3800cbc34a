import DocAudit.Proofs.Edit.Descent

/- A removal is refused exactly where a write to the same path is, with the same error. Both stop at
   the first node on the way that the next component cannot step into. Where a write would go on by
   creating something, a removal ends with nothing to remove. -/
namespace DocAudit
namespace Node

/-- The first part of the path ends at a container in which a write would have to create the next
    child: it is missing, or the path goes on below a null element of an array. -/
def ToBeCreated (root : Node) (path : KeyPath) : Prop :=
  ∃ shared component rest node, path = shared ++ component :: rest ∧
    root.get? shared = some node ∧ node.kind = component.container ∧
    (root.get? (shared ++ [component]) = none ∨
      rest ≠ [] ∧ (∃ i, component = .index i) ∧ root.get? (shared ++ [component]) = some .null)

/-- A node on the way is not the container that the next component steps into. A null element of
    an array is no such node, for a write puts a container in its place. -/
def BlockedAt (root : Node) (path : KeyPath) (component : Component) (node : Node) : Prop :=
  ∃ shared rest, path = shared ++ component :: rest ∧ root.get? shared = some node ∧
    node.kind ≠ component.container ∧ (node = .null → ∀ above i, shared ≠ above ++ [.index i])

section step
variable {node child : Node} {component next : Component} {rest : KeyPath}

theorem withdraw_unfit (unfit : node.kind ≠ component.container) (rest : KeyPath) :
    withdraw node (component :: rest) =
      (node, .error (.typeMismatch component.container node.kind)) := by
  cases rest <;> cases component <;> cases node <;> first | rfl | exact absurd rfl unfit

theorem withdraw_last (fits : node.kind = component.container)
    (nonnegative : component.NonNegative) :
    (withdraw node [component]).2 = .ok (node.get? [component]) := by
  rcases counted_cases fits nonnegative with ⟨entries, key, rfl, rfl⟩ | ⟨items, n, rfl, rfl⟩
  · rw [get_member]
    rfl
  · rw [get_element]
    rfl

theorem withdraw_missing (fits : node.kind = component.container)
    (nonnegative : component.NonNegative) (missing : node.get? [component] = none) :
    withdraw node [component] = (node, .ok none) := by
  refine Prod.ext ?_ (by rw [withdraw_last fits nonnegative, missing])
  rcases counted_cases fits nonnegative with ⟨entries, key, rfl, rfl⟩ | ⟨items, n, rfl, rfl⟩
  · rw [get_member] at missing
    simp only [withdraw, Entries.erase_absent missing]
  · rw [get_element] at missing
    simp only [withdraw, Int.toNat_natCast]
    rw [List.eraseIdx_of_length_le (List.getElem?_eq_none_iff.mp missing)]

theorem withdraw_vacant (fits : node.kind = component.container)
    (nonnegative : component.NonNegative) (vacant : Vacant node component) :
    withdraw node (component :: next :: rest) = (node, .ok none) := by
  rcases counted_cases fits nonnegative with ⟨entries, key, rfl, rfl⟩ | ⟨items, n, rfl, rfl⟩
  · simp only [Vacant, get_member, reduceCtorEq, exists_false, false_and, or_false] at vacant
    simp [withdraw, vacant]
  · simp only [Vacant, get_element] at vacant
    rcases vacant with missing | ⟨-, null⟩
    · simp [withdraw, missing]
    · simp [withdraw, null, isNull]

theorem withdraw_taken (found : node.get? [component] = some child)
    (taken : ¬ Vacant node component) :
    withdraw node (component :: next :: rest) =
      (node.withChild component (withdraw child (next :: rest)).1,
        (withdraw child (next :: rest)).2) := by
  rcases child_cases found with ⟨entries, key, rfl, rfl, entry⟩ | ⟨items, i, rfl, rfl, item⟩
  · simp [withdraw, withChild, entry]
  · have other : child ≠ .null := fun null => taken (.inr ⟨⟨_, rfl⟩, by rw [found, null]⟩)
    have inside := (List.getElem?_eq_some_iff.mp item).1
    have not_null : child.isNull = false := by cases child <;> simp_all [isNull]
    simp only [withdraw, withChild, Int.toNat_natCast, item, not_null, setElement, inside,
      Bool.false_eq_true, ↓reduceIte]

end step

theorem withdraw_refused_iff {path : KeyPath}
    (nonnegative : ∀ component ∈ path, component.NonNegative) (node value : Node)
    (fault : EditFault) :
    (withdraw node path).2 = .error fault ↔ (place node path value).2 = .error fault := by
  induction path generalizing node with
  | nil => simp [withdraw, place]
  | cons component rest ih =>
    obtain ⟨counted, rest_counted⟩ := List.forall_mem_cons.mp nonnegative
    by_cases fits : node.kind = component.container
    · rw [place_fits fits]
      cases rest with
      | nil => simp [withdraw_last fits counted, place]
      | cons next rest =>
        by_cases vacant : Vacant node component
        · rw [withdraw_vacant fits counted vacant, child_for_vacant fits counted vacant]
          simp [place_empty_for]
        · obtain ⟨child, found⟩ := taken_child vacant
          rw [withdraw_taken found vacant, child_for_taken found vacant]
          exact ih rest_counted child
    · rw [withdraw_unfit fits, place_unfit fits]
      simp

theorem place_found {path : KeyPath} {root old : Node} (found : root.get? path = some old) :
    place root path old = (root, .ok ()) := by
  induction path generalizing root with
  | nil =>
    cases found
    rfl
  | cons component rest ih =>
    rw [get_cons] at found
    obtain ⟨child, first, found⟩ := Option.bind_eq_some_iff.mp found
    rw [place_fits (fits_of_child first), place_child_for first found, ih found,
      with_child_found first]

theorem not_a_slot {node : Node} {component : Component} {location : KeyPath}
    (fits : node.kind = component.container) :
    node = .null → ∀ above i, location ≠ above ++ [.index i] := by
  rintro rfl
  cases component <;> cases fits

theorem edits_below {shared later : KeyPath} {root node : Node} (below : later ≠ [])
    (found : root.get? shared = some node)
    (no_slot : node = .null → ∀ above i, shared ≠ above ++ [.index i]) :
    withdraw root (shared ++ later) =
        ((place root shared (withdraw node later).1).1, (withdraw node later).2) ∧
      ∀ value, place root (shared ++ later) value =
        ((place root shared (place node later value).1).1, (place node later value).2) := by
  induction shared generalizing root with
  | nil =>
    cases found
    exact ⟨rfl, fun value => rfl⟩
  | cons component shared ih =>
    rw [get_cons] at found
    obtain ⟨child, first, found⟩ := Option.bind_eq_some_iff.mp found
    -- a write replaces a null element only, and no node on the way is one
    have taken : ¬ Vacant root component := by
      by_cases last : shared = []
      · subst last
        cases found
        rintro (missing | ⟨⟨i, rfl⟩, null⟩)
        · rw [missing] at first
          cases first
        · exact no_slot (Option.some.inj (first.symm.trans null)) [] i rfl
      · exact taken_of_below first found last
    obtain ⟨removal, write⟩ := ih found fun null above i same =>
      no_slot null (component :: above) i (by rw [same]; rfl)
    have fits := fits_of_child first
    refine ⟨?_, fun value => ?_⟩
    · obtain ⟨next, rest, onward⟩ : ∃ next rest, shared ++ later = next :: rest :=
        List.exists_cons_of_ne_nil (by simp [below])
      rw [List.cons_append, onward, withdraw_taken first taken, ← onward, removal,
        place_fits fits, child_for_taken first taken]
    · rw [List.cons_append, place_fits fits, child_for_taken first taken, write, place_fits fits,
        child_for_taken first taken]

theorem unchanged_below {shared later : KeyPath} {root node : Node} (below : later ≠ [])
    (found : root.get? shared = some node)
    (no_slot : node = .null → ∀ above i, shared ≠ above ++ [.index i]) :
    (∀ outcome, withdraw node later = (node, outcome) →
        withdraw root (shared ++ later) = (root, outcome)) ∧
      ∀ value outcome, place node later value = (node, outcome) →
        place root (shared ++ later) value = (root, outcome) := by
  obtain ⟨removal, write⟩ := edits_below below found no_slot
  refine ⟨fun outcome same => ?_, fun value outcome same => ?_⟩
  · rw [removal, same, place_found found]
  · rw [write, same, place_found found]

theorem outcome_at_error {α : Type} {path : KeyPath} {outcome : Except EditFault α}
    {error : EditError} :
    outcomeAt path outcome = .error error ↔ ∃ fault, outcome = .error fault ∧ error = ⟨path, fault⟩ := by
  cases outcome <;> simp [outcomeAt, eq_comm]

theorem remove_refused_iff (root : Node) (path : KeyPath) (value : Node) (error : EditError) :
    (root.remove path).2 = .error error ↔ (root.write path value).2 = .error error := by
  unfold remove write
  cases checked : checkPath path with
  | error fault => simp
  | ok passed =>
    simp only [outcome_at_error, withdraw_refused_iff (checked_nonnegative checked) root value]

theorem nothing_to_remove {root : Node} {path : KeyPath} (checked : checkPath path = .ok ())
    (to_be_created : ToBeCreated root path) : root.remove path = (root, .ok none) := by
  obtain ⟨shared, component, rest, node, rfl, found, fits, missing⟩ := to_be_created
  have counted : component.NonNegative :=
    checked_nonnegative checked component (by simp)
  have child : root.get? (shared ++ [component]) = node.get? [component] := by
    rw [get_append, found]
    rfl
  have ended : withdraw node (component :: rest) = (node, .ok none) := by
    rw [child] at missing
    cases rest with
    | nil => exact withdraw_missing fits counted (missing.resolve_right fun deeper => deeper.1 rfl)
    | cons next rest => exact withdraw_vacant fits counted (missing.imp_right And.right)
  have whole := (unchanged_below (List.cons_ne_nil _ _) found (not_a_slot fits)).1 _ ended
  simp only [remove, checked, whole, outcomeAt]

theorem blocked_edits {root node : Node} {path : KeyPath} {component : Component}
    (checked : checkPath path = .ok ()) (blocked : BlockedAt root path component node)
    (value : Node) :
    root.remove path = (root, .error ⟨path, .typeMismatch component.container node.kind⟩) ∧
      root.write path value =
        (root, .error ⟨path, .typeMismatch component.container node.kind⟩) := by
  obtain ⟨shared, rest, rfl, found, unfit, no_slot⟩ := blocked
  obtain ⟨removal, write⟩ := unchanged_below (List.cons_ne_nil component rest) found no_slot
  simp only [remove, Node.write, checked, removal _ (withdraw_unfit unfit rest),
    write value _ (place_unfit unfit rest value), outcomeAt, and_self]

/-- A removal fails exactly if a write to the same path does, with the same error. Once the path has
    passed the check, a removal of what a write would have to create finds nothing, and a node
    that cannot be stepped into fails both, be it a null that is no element of an array. -/
theorem removal_fails_like_write (root : Node) (path : KeyPath) (value : Node) :
    (∀ error, (root.remove path).2 = .error error ↔ (root.write path value).2 = .error error) ∧
      (checkPath path = .ok () →
        (ToBeCreated root path → root.remove path = (root, .ok none)) ∧
        ∀ component node, BlockedAt root path component node →
          (root.remove path).2 = .error ⟨path, .typeMismatch component.container node.kind⟩ ∧
          (root.write path value).2 =
            .error ⟨path, .typeMismatch component.container node.kind⟩) := by
  refine ⟨remove_refused_iff root path value, fun checked => ⟨nothing_to_remove checked, ?_⟩⟩
  intro component node blocked
  obtain ⟨removal, write⟩ := blocked_edits checked blocked value
  rw [removal, write]
  exact ⟨rfl, rfl⟩

theorem null_entry_and_null_element :
    (dictionary [("a", null)]).BlockedAt [.property "a", .index 0] (.index 0) null ∧
    (array [null]).ToBeCreated [.index 0, .property "a"] ∧
    ((dictionary [("a", null)]).remove [.property "a", .index 0]).2 =
      .error ⟨[.property "a", .index 0], .typeMismatch .array .null⟩ ∧
    (array [null]).remove [.index 0, .property "a"] = (array [null], .ok none) := by
  have blocked : (dictionary [("a", null)]).BlockedAt [.property "a", .index 0] (.index 0) null :=
    ⟨[.property "a"], [], rfl, rfl, by decide, fun _ above i same => by
      cases above <;> simp at same⟩
  have to_be_created : (array [null]).ToBeCreated [.index 0, .property "a"] :=
    ⟨[], .index 0, [.property "a"], array [null], rfl, rfl, rfl,
      .inr ⟨by simp, ⟨0, rfl⟩, rfl⟩⟩
  exact ⟨blocked, to_be_created,
    (((removal_fails_like_write _ _ null).2 rfl).2 _ _ blocked).1,
    ((removal_fails_like_write _ _ null).2 rfl).1 to_be_created⟩

end Node
end DocAudit
