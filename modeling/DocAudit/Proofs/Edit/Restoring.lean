import DocAudit.Proofs.Edit.Order
import DocAudit.Proofs.Edit.RemovalEffect

/- Laws of edits one after the other at the same path, as equalities of whole trees. To write what is
   read changes nothing, and of two writes the second one counts. A write that adds a child at the
   end of its way is undone by a removal, and a removal by a write of what was removed, if that
   goes back to its old place: then the same container is put back twice, first with the change
   and then as it was. -/
namespace DocAudit
namespace Entries
variable {κ α : Type} [Ord κ] [DecidableEq κ]

theorem erase_inserted {key : κ} {entries : List (κ × α)} (absent : find? key entries = none)
    (value : α) : erase key (insert key value entries) = entries := by
  rw [insert_absent (by simp [contains, absent])]
  induction entries with
  | nil => simp [addNew, erase]
  | cons entry rest ih =>
    obtain ⟨k, v⟩ := entry
    by_cases same : k = key
    · simp [find?, same] at absent
    · have later : find? key rest = none := by simpa [find?, Ne.symm same] using absent
      by_cases before : compare key k = .lt
      · rw [addNew, if_pos before, erase_cons, if_pos rfl, erase_absent absent]
      · rw [addNew, if_neg before, erase_cons, if_neg same, ih later]

theorem insert_erased [Std.TransOrd κ] [Std.LawfulEqOrd κ] {key : κ} {value : α}
    {entries : List (κ × α)} (ascending : Ascending entries)
    (found : find? key entries = some value) :
    insert key value (erase key entries) = entries := by
  refine ascending_ext (ascending_insert key value (ascending_erase key ascending)) ascending
    fun probe => ?_
  rw [find_insert, find_erase]
  by_cases same : probe = key
  · simp [same, found]
  · simp [same]

end Entries

namespace Node

/-- A place in a container where a child can be added and nothing moves. -/
inductive FreePlace : Node → Component → Prop
  | missingKey {entries : List (String × Node)} {key : String}
      (missing : key ∉ Entries.keys entries) : FreePlace (.dictionary entries) (.property key)
  | atEnd (items : List Node) : FreePlace (.array items) (.index items.length)

/-- A child whose removal moves no other one. -/
inductive LastPlace : Node → Component → Prop
  | entry (entries : List (String × Node)) (key : String) :
      LastPlace (.dictionary entries) (.property key)
  | lastElement (items : List Node) (last : Node) :
      LastPlace (.array (items ++ [last])) (.index items.length)

section container
variable {parent value : Node} {last : Component}

theorem added_and_removed (free : FreePlace parent last) (value : Node) :
    parent.kind = last.container ∧ last.NonNegative ∧
      (parent.withChild last value).withoutChild last = parent := by
  cases free with
  | missingKey missing =>
    refine ⟨rfl, trivial, ?_⟩
    rw [withChild, withoutChild, Entries.erase_inserted (Entries.find_none_iff.mpr missing)]
  | atEnd items =>
    refine ⟨rfl, Int.natCast_nonneg _, ?_⟩
    simp [withChild, withoutChild, setElement, List.eraseIdx_append_of_length_le]

theorem removed_and_put_back (ordered : parent.Ordered) (place : LastPlace parent last)
    (found : parent.get? [last] = some value) :
    (parent.withoutChild last).withChild last value = parent := by
  cases place with
  | entry entries key =>
    rw [get_member] at found
    rw [withoutChild, withChild, Entries.insert_erased ordered.1 found]
  | lastElement items last =>
    rw [get_element] at found
    simp only [List.getElem?_concat_length, Option.some.injEq] at found
    simp [withChild, withoutChild, setElement, List.eraseIdx_append_of_length_le, found]

end container

section tree
variable {root parent : Node} {path shared : KeyPath} {last : Component}

theorem place_twice (nonnegative : ∀ component ∈ path, component.NonNegative)
    (root v w : Node) : place (place root path v).1 path w = place root path w := by
  induction path generalizing root with
  | nil => rfl
  | cons component rest ih =>
    obtain ⟨counted, rest_counted⟩ := List.forall_mem_cons.mp nonnegative
    by_cases fits : root.kind = component.container
    case neg => rw [place_unfit fits, place_unfit fits]
    have after_fits (child : Node) :
        (root.withChild component child).kind = component.container := by
      rw [kind_with_child, fits]
    rw [place_fits fits, place_fits fits, place_fits (after_fits _), with_child_twice]
    -- the second write goes on with the container that the first one left
    by_cases ended : rest = []
    · subst ended
      rfl
    · rw [child_for_again fits counted (placed_not_null fits counted ended v), ih rest_counted]

theorem put_and_put_back {old : Node} (found : root.get? path = some old) (new : Node) :
    (place root path new).1.get? path = some new ∧
      place (place root path new).1 path old = (root, .ok ()) := by
  have there := get_replaced found new []
  rw [List.append_nil] at there
  exact ⟨there, by rw [place_twice (existing_nonnegative found), place_found found]⟩

theorem place_last (reached : root.get? shared = some parent)
    (fits : parent.kind = last.container) (value : Node) :
    place root (shared ++ [last]) value =
      ((place root shared (parent.withChild last value)).1, .ok ()) := by
  rw [(edits_below (List.cons_ne_nil last []) reached (not_a_slot fits)).2, place_fits fits]
  rfl

theorem place_and_withdraw (reached : root.get? shared = some parent)
    (free : FreePlace parent last) (value : Node) :
    ∃ after, place root (shared ++ [last]) value = (after, .ok ()) ∧
      withdraw after (shared ++ [last]) = (root, .ok (some value)) := by
  obtain ⟨fits, counted, restored⟩ := added_and_removed free value
  obtain ⟨there, back⟩ := put_and_put_back reached (parent.withChild last value)
  refine ⟨_, place_last reached fits value, ?_⟩
  rw [withdraw_existing there (get_child fits counted value []), restored, back]

theorem withdraw_and_place {value : Node} (ordered : root.Ordered)
    (reached : root.get? shared = some parent) (position : LastPlace parent last)
    (found : parent.get? [last] = some value) :
    ∃ after, withdraw root (shared ++ [last]) = (after, .ok (some value)) ∧
      place after (shared ++ [last]) value = (root, .ok ()) := by
  have restored := removed_and_put_back (ordered_at ordered reached) position found
  obtain ⟨there, back⟩ := put_and_put_back reached (parent.withoutChild last)
  have fits : (parent.withoutChild last).kind = last.container := by
    cases position <;> rfl
  refine ⟨_, withdraw_existing reached found, ?_⟩
  rw [place_last there fits, restored, back]

end tree

section edits
variable {root after value : Node} {path : KeyPath}

theorem write_of_place (within : path.WithinLimits)
    (placed : place root path value = (after, .ok ())) : root.write path value = (after, .ok ()) := by
  rw [write_eq, check_path_iff_within.mpr within, placed]
  rfl

theorem remove_of_withdraw (within : path.WithinLimits) {removed : Option Node}
    (withdrawn : withdraw root path = (after, .ok removed)) :
    root.remove path = (after, .ok removed) := by
  simp only [remove, check_path_iff_within.mpr within, withdrawn, outcomeAt]

theorem write_twice (root : Node) (path : KeyPath) (v w : Node) :
    (root.write path v).1.write path w = root.write path w := by
  simp only [write_eq]
  cases checked : checkPath path with
  | error fault => rfl
  | ok passed => simp only [place_twice (checked_nonnegative checked)]

end edits

/-- To write the value that is read changes nothing. Of two writes to one path only the second
    counts, and succeeds if the first one did. A value written to a free place of a container that
    is there can be removed again, and a value removed from a last place can be written back: both
    restore the tree as it was. -/
theorem edits_undone {root : Node} {path : KeyPath} (within : path.WithinLimits) :
    (∀ value, root.get? path = some value → root.write path value = (root, .ok ())) ∧
      (∀ v w after, root.write path v = (after, .ok ()) →
        (after.write path w).2 = .ok () ∧ after.write path w = root.write path w) ∧
      (∀ shared last parent value, path = shared ++ [last] → root.get? shared = some parent →
        FreePlace parent last → ∃ after, root.write path value = (after, .ok ()) ∧
          after.remove path = (root, .ok (some value))) ∧
      ∀ shared last parent value, root.Ordered → path = shared ++ [last] →
        root.get? shared = some parent → LastPlace parent last →
        root.get? path = some value → ∃ after, root.remove path = (after, .ok (some value)) ∧
          after.write path value = (root, .ok ()) := by
  refine ⟨fun value found => write_of_place within (place_found found), ?_, ?_, ?_⟩
  · intro v w after written
    have second : after.write path w = root.write path w := by
      rw [← write_twice root path v w, written]
    have accepted := (write_ok_iff v).mp (congrArg Prod.snd written)
    rw [second]
    exact ⟨(write_ok_iff w).mpr accepted, rfl⟩
  · rintro shared last parent value rfl reached free
    obtain ⟨after, placed, withdrawn⟩ := place_and_withdraw reached free value
    exact ⟨after, write_of_place within placed, remove_of_withdraw within withdrawn⟩
  · rintro shared last parent value ordered rfl reached position found
    rw [get_append, reached, Option.bind_some] at found
    obtain ⟨after, withdrawn, placed⟩ := withdraw_and_place ordered reached position found
    exact ⟨after, remove_of_withdraw within withdrawn, write_of_place within placed⟩

def threeEntries : Node :=
  .dictionary [("a", .array [.null]), ("b", .boolean true), ("c", .null)]

theorem restored_at_the_end_and_between :
    (threeEntries.write [.property "a", .index 1] (string "x")).1.remove
        [.property "a", .index 1] = (threeEntries, .ok (some (string "x"))) ∧
    (threeEntries.remove [.property "b"]).1.write [.property "b"] (boolean true) =
      (threeEntries, .ok ()) := by
  have ordered : threeEntries.Ordered := by
    simp [threeEntries, Ordered, OrderedEntries, OrderedItems, Entries.Ascending]
    decide
  have element : KeyPath.WithinLimits [.property "a", .index 1] := ⟨by decide, by simp⟩
  have entry : KeyPath.WithinLimits [.property "b"] := ⟨by decide, by simp⟩
  obtain ⟨after, written, removed⟩ := (@edits_undone threeEntries _ element).2.2.1
    [.property "a"] (.index 1) (array [null]) (string "x") rfl rfl (.atEnd [null])
  obtain ⟨without, taken, back⟩ := (@edits_undone threeEntries _ entry).2.2.2
    [] (.property "b") _ (boolean true) ordered rfl rfl (.entry _ "b") rfl
  rw [written, taken]
  exact ⟨removed, back⟩

end Node
end DocAudit
