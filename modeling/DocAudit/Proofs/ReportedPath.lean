import DocAudit.Proofs.ExactComparison
import DocAudit.Proofs.KeyPath.WrittenApart

/- The path of a report leads to the values it shows. Every component of a location at which two
   trees diverge names a part of one of them, so it can be written unless it is an empty key or an
   index out of range; then the written path reads as the location, and at the location each tree
   has the reported value. The root alone is written as the root mark, which is no path. -/
namespace DocAudit
namespace Node

def LacksEmptyKey (node : Node) : Prop := node.get? [.property ""] = none

def NoEmptyKeys (root : Node) : Prop := root.Everywhere LacksEmptyKey

def CountedInRange (node : Node) : Prop :=
  ∀ items, node = .array items → (items.length : Int) ≤ Word.greatestSigned

/-- No array of the tree has more elements than a signed 64-bit number can count, as is so of every
    array in memory. -/
def Indexable (root : Node) : Prop := root.Everywhere CountedInRange

end Node

namespace Comparison
open Node
variable {expected actual : Node}

theorem index_writable {items : List Node} {i : Nat} (in_range : CountedInRange (.array items))
    (inside : i < items.length) : (Component.index i).Writable := by
  have counted := in_range items rfl
  simp only [Component.Writable, Word.IsSigned, Word.leastSigned, Word.greatestSigned] at counted ⊢
  omega

theorem part_writable {component : Component} (lockstep : Lockstep expected actual)
    (part : (expected.get? [component]).isSome = true ∨ (actual.get? [component]).isSome = true)
    (lacks : LacksEmptyKey expected) (actual_lacks : LacksEmptyKey actual)
    (in_range : CountedInRange expected) : component.Writable := by
  have listed := components_complete lockstep part
  cases lockstep with
  | dictionaries es as =>
    cases component with
    | index i => simp [get?] at part
    | property key =>
      intro empty
      subst empty
      rw [lacks, actual_lacks] at part
      simp at part
  | arrays es as same_length =>
    obtain ⟨i, inside, rfl⟩ := List.mem_map.mp listed
    exact index_writable in_range (List.mem_range.mp inside)

theorem visited_writable {location : KeyPath} (visited : Visited expected actual location)
    (keys : expected.NoEmptyKeys) (actual_keys : actual.NoEmptyKeys)
    (indexable : expected.Indexable) : ∀ component ∈ location, component.Writable := by
  induction visited with
  | root => simp
  | shared lockstep in_expected in_actual _ ih =>
    refine List.forall_mem_cons.mpr ⟨?_, ?_⟩
    · exact part_writable lockstep (.inl (by rw [in_expected]; rfl)) (holds_here keys)
        (holds_here actual_keys) (holds_here indexable)
    · exact ih (everywhere_child keys in_expected) (everywhere_child actual_keys in_actual)
        (everywhere_child indexable in_expected)
  | only_expected lockstep in_expected =>
    refine List.forall_mem_singleton.mpr ?_
    exact part_writable lockstep (.inl (by rw [in_expected]; rfl)) (holds_here keys)
      (holds_here actual_keys) (holds_here indexable)
  | only_actual lockstep _ in_actual =>
    refine List.forall_mem_singleton.mpr ?_
    exact part_writable lockstep (.inr (by rw [in_actual]; rfl)) (holds_here keys)
      (holds_here actual_keys) (holds_here indexable)

theorem divergent_value {e a : Option Node} (divergent : Divergent e a) :
    ¬ (e = none ∧ a = none) := by
  intro missing
  obtain ⟨no_expected, no_actual⟩ := missing
  cases divergent <;> contradiction

/-- If no key is empty, a mismatch at the root shows both trees, and every other one has a path that
    can be read and leads in each tree to the value shown for it, or nowhere if none is shown. At
    least one value is shown. -/
theorem path_leads_to_values (ordered : expected.Ordered) (actual_ordered : actual.Ordered)
    (keys : expected.NoEmptyKeys) (actual_keys : actual.NoEmptyKeys)
    (indexable : expected.Indexable) {mismatch : Mismatch}
    (reported : compare expected actual = some mismatch) :
    (mismatch.path = "$" →
      mismatch.expected = some expected ∧ mismatch.actual = some actual) ∧
    (mismatch.path ≠ "$" → ∃ path, KeyPath.parse mismatch.path = .ok path ∧
      expected.get? path = mismatch.expected ∧ actual.get? path = mismatch.actual) ∧
    ¬ (mismatch.expected = none ∧ mismatch.actual = none) := by
  have first := compare_first expected actual ordered actual_ordered
  rw [reported] at first
  obtain ⟨visited, divergent⟩ := first.diverges
  rw [← first.expected_value, ← first.actual_value] at divergent
  have writable := visited_writable visited keys actual_keys indexable
  have at_root : mismatch.path = "$" ↔ mismatch.location = [] :=
    KeyPath.render_root_iff mismatch.location
  refine ⟨?_, ?_, divergent_value divergent⟩
  · intro root
    rw [at_root] at root
    rw [first.expected_value, first.actual_value, root]
    exact ⟨rfl, rfl⟩
  · intro below
    rw [ne_eq, at_root] at below
    exact ⟨mismatch.location, KeyPath.parse_render below writable, first.expected_value.symm,
      first.actual_value.symm⟩

theorem path_of_an_extra_key :
    compare (dictionary [("$a.b[0]", array [null, dictionary [("x", null)]])])
        (dictionary [("$a.b[0]", array [null, dictionary [("\\", string "y"), ("x", null)]])]) =
      some ⟨[.property "$a.b[0]", .index 1, .property "\\"], none, some (string "y"),
        .mismatchedProperty⟩ ∧
    ∃ path, KeyPath.parse "\\$a\\.b\\[0\\][1].\\\\" = .ok path ∧
      (dictionary [("$a.b[0]", array [null, dictionary [("x", null)]])]).get? path = none ∧
      (dictionary [("$a.b[0]", array [null, dictionary [("\\", string "y"), ("x", null)]])]).get?
        path = some (string "y") := by
  have reported : compare (dictionary [("$a.b[0]", array [null, dictionary [("x", null)]])])
      (dictionary [("$a.b[0]", array [null, dictionary [("\\", string "y"), ("x", null)]])]) =
    some ⟨[.property "$a.b[0]", .index 1, .property "\\"], none, some (string "y"),
      .mismatchedProperty⟩ := rfl
  refine ⟨reported, (path_leads_to_values ?_ ?_ ?_ ?_ ?_ reported).2.1 (by decide)⟩
  · simp [Ordered, OrderedEntries, OrderedItems, Entries.Ascending]
  · simp [Ordered, OrderedEntries, OrderedItems, Entries.Ascending]
    decide
  · simp [NoEmptyKeys, Everywhere, EverywhereEntries, EverywhereItems, LacksEmptyKey, get?,
      Entries.find?]
  · simp [NoEmptyKeys, Everywhere, EverywhereEntries, EverywhereItems, LacksEmptyKey, get?,
      Entries.find?]
  · simp [Indexable, Everywhere, EverywhereEntries, EverywhereItems, CountedInRange,
      Word.greatestSigned]

end Comparison
end DocAudit
