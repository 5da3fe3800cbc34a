import DocAudit.Proofs.Edit.Effect
import DocAudit.Proofs.Edit.Refusal
import DocAudit.Proofs.Edit.Removal

/- What a removal does to the whole tree. It hands back what is read at its path. If that is nothing,
   the tree stays as it is. Otherwise the container at the end of the way loses one key, or one
   element so that the later ones move down, and is put back in its place; so all that is beside
   the way to this container reads as before. -/
namespace DocAudit
namespace Node

/-- How the tree differs that a removal leaves behind when there was something to remove. -/
structure RemovalEffect (root : Node) (path : KeyPath) (after : Node) : Prop where
  root_taken : path = [] → after = .null
  key_gone : ∀ shared key, path = shared ++ [.property key] → ∃ entries,
    root.get? shared = some (.dictionary entries) ∧
      after.get? shared = some (.dictionary (entries.filter fun entry => entry.1 ≠ key))
  element_gone : ∀ shared (i : Int), path = shared ++ [.index i] → ∃ items left,
    root.get? shared = some (.array items) ∧ after.get? shared = some (.array left) ∧
      left.length + 1 = items.length ∧
      ∀ j : Nat, left[j]? = if (j : Int) < i then items[j]? else items[j + 1]?
  beside : ∀ shared last location, path = shared ++ [last] → KeyPath.Diverge shared location →
    after.get? location = root.get? location

section place
variable {root old : Node} {path location : KeyPath}

theorem not_appended (found : root.get? path = some old) : ¬ Appended root path location := by
  rintro ⟨shared, rest, i, j, rfl, rfl, beyond, before⟩
  rw [get_append] at found
  obtain ⟨node, reached, found⟩ := Option.bind_eq_some_iff.mp found
  rw [get_cons] at found
  obtain ⟨child, first, -⟩ := Option.bind_eq_some_iff.mp found
  rcases child_cases first with ⟨_, _, -, wrong, -⟩ | ⟨items, n, rfl, index, item⟩
  · cases wrong
  · cases index
    have inside := (List.getElem?_eq_some_iff.mp item).1
    simp only [itemsAt, reached, items?, Option.bind_some, Option.getD_some] at beyond
    omega

theorem place_exists (found : root.get? path = some old) (new : Node) :
    ∃ after, place root path new = (after, .ok ()) := by
  induction path generalizing root with
  | nil => exact ⟨new, rfl⟩
  | cons component rest ih =>
    rw [get_cons] at found
    obtain ⟨child, first, found⟩ := Option.bind_eq_some_iff.mp found
    obtain ⟨after, placed⟩ := ih found
    exact ⟨root.withChild component after, by
      rw [place_fits (fits_of_child first), place_child_for first found, placed]⟩

theorem get_replaced (found : root.get? path = some old) (new : Node) (rest : KeyPath) :
    (place root path new).1.get? (path ++ rest) = new.get? rest := by
  obtain ⟨after, placed⟩ := place_exists found new
  rw [placed]
  exact (place_effect (existing_nonnegative found) placed).below rest

theorem get_beside_replaced (found : root.get? path = some old) (new : Node)
    (diverge : KeyPath.Diverge path location) :
    (place root path new).1.get? location = root.get? location := by
  obtain ⟨after, placed⟩ := place_exists found new
  have effect := place_effect (existing_nonnegative found) placed
  rw [placed]
  cases before : root.get? location with
  | some value => exact effect.kept location value diverge before
  | none => exact effect.still_missing location diverge before (not_appended found)

end place

section removal
variable {root value : Node} {path shared : KeyPath} {last : Component}

theorem parent_of_existing (found : root.get? (shared ++ [last]) = some value) :
    ∃ parent, root.get? shared = some parent ∧ parent.get? [last] = some value := by
  rw [get_append] at found
  exact Option.bind_eq_some_iff.mp found

theorem withdraw_existing {parent : Node} (reached : root.get? shared = some parent)
    (found : parent.get? [last] = some value) :
    withdraw root (shared ++ [last]) =
      ((place root shared (parent.withoutChild last)).1, .ok (some value)) := by
  have fits := fits_of_child found
  have counted := existing_nonnegative found last List.mem_cons_self
  rw [(edits_below (List.cons_ne_nil last []) reached (not_a_slot fits)).1, withdraw_last_tree fits,
    withdraw_last fits counted, found]

theorem withdraw_nothing (nonnegative : ∀ component ∈ path, component.NonNegative)
    (missing : root.get? path = none) {removed : Option Node}
    (done : (withdraw root path).2 = .ok removed) : withdraw root path = (root, .ok none) := by
  induction path generalizing root with
  | nil => cases missing
  | cons component rest ih =>
    obtain ⟨counted, rest_counted⟩ := List.forall_mem_cons.mp nonnegative
    -- either the walk finds nothing to go on with, or nothing is found below
    by_cases fits : root.kind = component.container
    case neg =>
      rw [withdraw_unfit fits] at done
      cases done
    cases rest with
    | nil => exact withdraw_missing fits counted missing
    | cons next rest =>
      by_cases vacant : Vacant root component
      · exact withdraw_vacant fits counted vacant
      · obtain ⟨child, found⟩ := taken_child vacant
        rw [withdraw_taken found vacant] at done ⊢
        rw [get_cons, found, Option.bind_some] at missing
        rw [ih rest_counted missing done, with_child_found found]

theorem remove_ok {after : Node} {removed : Option Node}
    (done : root.remove path = (after, .ok removed)) :
    checkPath path = .ok () ∧ withdraw root path = (after, .ok removed) := by
  unfold remove at done
  cases checked : checkPath path with
  | error fault => simp [checked] at done
  | ok passed =>
    simp only [checked] at done
    obtain ⟨tree, outcome⟩ := Prod.mk.inj done
    exact ⟨rfl, Prod.ext tree (outcome_at_ok.mp outcome)⟩

theorem removal_effect_of_parent {parent : Node} (reached : root.get? shared = some parent)
    (found : parent.get? [last] = some value) :
    RemovalEffect root (shared ++ [last]) (place root shared (parent.withoutChild last)).1 where
  root_taken := by simp
  key_gone := by
    intro before key same
    obtain ⟨rfl, named⟩ := List.append_inj' same rfl
    cases named
    rcases child_cases found with ⟨entries, _, rfl, -, -⟩ | ⟨_, _, -, wrong, -⟩
    · have left := get_replaced reached ((dictionary entries).withoutChild (.property key)) []
      rw [List.append_nil] at left
      exact ⟨entries, reached, left⟩
    · cases wrong
  element_gone := by
    intro before i same
    obtain ⟨rfl, named⟩ := List.append_inj' same rfl
    cases named
    rcases child_cases found with ⟨_, _, -, wrong, -⟩ | ⟨items, n, rfl, index, item⟩
    · cases wrong
    · obtain rfl := Component.index.inj index
      have inside := (List.getElem?_eq_some_iff.mp item).1
      have left := get_replaced reached ((array items).withoutChild (.index n)) []
      rw [List.append_nil] at left
      refine ⟨items, items.eraseIdx n, reached, left, ?_, fun j => ?_⟩
      · rw [List.length_eraseIdx_of_lt inside]
        omega
      · rw [List.getElem?_eraseIdx]
        simp only [Int.ofNat_lt]
  beside := by
    intro before other location same diverge
    obtain ⟨rfl, -⟩ := List.append_inj' same rfl
    exact get_beside_replaced reached _ diverge

theorem remove_existing_effect {after : Node} {removed : Option Node}
    (done : root.remove path = (after, .ok removed)) (found : root.get? path = some value) :
    removed = some value ∧ RemovalEffect root path after := by
  obtain ⟨-, withdrawn⟩ := remove_ok done
  rcases List.eq_nil_or_concat path with rfl | ⟨shared, last, rfl⟩
  · cases found
    cases withdrawn
    exact ⟨rfl, { root_taken := fun _ => rfl, key_gone := by simp, element_gone := by simp,
                  beside := by simp }⟩
  · rw [List.concat_eq_append] at *
    obtain ⟨parent, reached, child⟩ := parent_of_existing found
    rw [withdraw_existing reached child] at withdrawn
    cases withdrawn
    exact ⟨rfl, removal_effect_of_parent reached child⟩

theorem remove_nothing {after : Node} {removed : Option Node}
    (done : root.remove path = (after, .ok removed)) (missing : root.get? path = none) :
    removed = none ∧ after = root := by
  obtain ⟨checked, withdrawn⟩ := remove_ok done
  have nothing := withdraw_nothing (checked_nonnegative checked) missing
    (congrArg Prod.snd withdrawn)
  cases nothing.symm.trans withdrawn
  exact ⟨rfl, rfl⟩

theorem remove_key_again {after : Node} {removed : Option Node} {key : String}
    (done : root.remove (shared ++ [.property key]) = (after, .ok removed)) :
    after.remove (shared ++ [.property key]) = (after, .ok none) := by
  cases found : root.get? (shared ++ [.property key]) with
  | none =>
    obtain ⟨rfl, rfl⟩ := remove_nothing done found
    exact done
  | some value =>
    obtain ⟨-, effect⟩ := remove_existing_effect done found
    obtain ⟨entries, -, left⟩ := effect.key_gone shared key rfl
    refine nothing_to_remove (remove_ok done).1 ⟨shared, _, [], _, rfl, left, rfl, .inl ?_⟩
    rw [get_append, left, Option.bind_some, get_member]
    exact (Entries.find_erase key key entries).trans (if_pos rfl)

theorem refused_removal_unchanged {error : EditError}
    (refused : (root.remove path).2 = .error error) : (root.remove path).1 = root := by
  cases checked : checkPath path with
  | error fault => simp [remove, checked]
  | ok passed =>
    rw [remove_refused_iff root path null, write_error_iff, refused_iff] at refused
    rcases refused.2 with unsound | ⟨-, location, component, node, obstacle, -⟩
    · rw [checked] at unsound
      cases unsound
    · rw [(obstacle_stops checked obstacle null).1]

end removal

/-- A removal that fails leaves the tree as it was. One that succeeds yields what was read at the
    path. If nothing was there, the tree is unchanged; else the dictionary or array that held the
    value lacks just its key or element, with the later elements moved down by one, and whatever
    lies beside the way to it reads as before. To remove a key a second time changes nothing. -/
theorem removal_effect (root : Node) (path : KeyPath) :
    (∀ error, (root.remove path).2 = .error error → (root.remove path).1 = root) ∧
      ∀ removed after, root.remove path = (after, .ok removed) →
        removed = root.get? path ∧ (removed = none → after = root) ∧
        (∀ value, removed = some value → RemovalEffect root path after) ∧
        ∀ shared key, path = shared ++ [.property key] →
          after.remove path = (after, .ok none) := by
  refine ⟨fun error refused => refused_removal_unchanged refused, ?_⟩
  intro removed after done
  have again : ∀ shared key, path = shared ++ [.property key] →
      after.remove path = (after, .ok none) := by
    rintro shared key rfl
    exact remove_key_again done
  cases found : root.get? path with
  | none =>
    obtain ⟨rfl, rfl⟩ := remove_nothing done found
    exact ⟨rfl, fun _ => rfl, by simp, again⟩
  | some value =>
    obtain ⟨rfl, effect⟩ := remove_existing_effect done found
    exact ⟨rfl, by simp, fun _ _ => effect, again⟩

theorem element_in_the_middle :
    (dictionary [("a", array [null, boolean true, string "x"]), ("b", null)]).remove
        [.property "a", .index 1] =
      (dictionary [("a", array [null, string "x"]), ("b", null)], .ok (some (boolean true))) ∧
    (dictionary [("a", array [null, boolean true, string "x"]), ("b", null)]).get?
        [.property "a", .index 1] = some (boolean true) ∧
    RemovalEffect (dictionary [("a", array [null, boolean true, string "x"]), ("b", null)])
      [.property "a", .index 1] (dictionary [("a", array [null, string "x"]), ("b", null)]) := by
  obtain ⟨read, -, effect, -⟩ := (removal_effect
    (dictionary [("a", array [null, boolean true, string "x"]), ("b", null)])
    [.property "a", .index 1]).2 _ _ rfl
  exact ⟨rfl, read.symm, effect _ rfl⟩

end Node
end DocAudit
