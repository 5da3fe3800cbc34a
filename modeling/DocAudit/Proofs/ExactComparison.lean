import DocAudit.Proofs.Divergence
import DocAudit.Proofs.NumericEquality

/- The comparison of two ordered trees reports their first divergence. The parts of two dictionaries
   or of two arrays of one length are taken in the order of the walk, and the first of them that has
   a divergence settles the whole; this is an induction on the expected tree. Of all other pairs
   only the two values themselves are looked at. -/
namespace DocAudit
namespace Comparison
open Node

/-! The parts of a node, taken in order: the first of them that has a divergence has the first
    divergence of the node. -/

def branch (expected actual : Node) (component : Component) : Option Mismatch :=
  match expected.get? [component], actual.get? [component] with
  | some e, some a => (compare e a).map (Mismatch.below component)
  | none, none => none
  | e, a => some ⟨[component], e, a, .mismatchedProperty⟩

theorem branch_shared {expected actual e a : Node} {component : Component}
    (in_expected : expected.get? [component] = some e)
    (in_actual : actual.get? [component] = some a) :
    branch expected actual component = (compare e a).map (Mismatch.below component) := by
  rw [branch, in_expected, in_actual]

theorem branch_only_expected {expected actual e : Node} {component : Component}
    (in_expected : expected.get? [component] = some e)
    (not_in_actual : actual.get? [component] = none) :
    branch expected actual component =
      some ⟨[component], some e, none, .mismatchedProperty⟩ := by
  rw [branch, in_expected, not_in_actual]

theorem branch_none {expected actual : Node} {component : Component}
    (children : ∀ e a, expected.get? [component] = some e → actual.get? [component] = some a →
      FirstDivergence e a (compare e a))
    (found : branch expected actual component = none) (rest : KeyPath) :
    ¬ Diverges expected actual (component :: rest) := by
  intro diverges
  have lockstep := lockstep_of_below diverges
  have part := part_of_diverging diverges
  unfold branch at found
  split at found
  next e a in_expected in_actual =>
    have child := children e a in_expected in_actual
    rw [Option.map_eq_none_iff.mp found] at child
    exact child rest ((diverges_shared_iff lockstep in_expected in_actual).mp diverges)
  next in_expected in_actual => simp [in_expected, in_actual] at part
  next => contradiction

theorem branch_some {expected actual : Node} {component : Component} {mismatch : Mismatch}
    (lockstep : Lockstep expected actual)
    (children : ∀ e a, expected.get? [component] = some e → actual.get? [component] = some a →
      FirstDivergence e a (compare e a))
    (found : branch expected actual component = some mismatch) :
    FirstBelow expected actual component mismatch := by
  unfold branch at found
  split at found
  next e a in_expected in_actual =>
    obtain ⟨deeper, result, rfl⟩ := Option.map_eq_some_iff.mp found
    have child := children e a in_expected in_actual
    rw [result] at child
    exact first_below_shared lockstep in_expected in_actual child
  next => contradiction
  next not_both not_neither =>
    cases found
    refine first_below_single lockstep ?_
    cases in_expected : expected.get? [component] <;> cases in_actual : actual.get? [component] <;>
      simp_all

theorem first_of_branches {expected actual : Node} {components : List Component}
    (lockstep : Lockstep expected actual) (in_order : components.Pairwise (Precedes expected))
    (complete : ∀ component, (expected.get? [component]).isSome = true ∨
      (actual.get? [component]).isSome = true → component ∈ components)
    (children : ∀ component e a, expected.get? [component] = some e →
      actual.get? [component] = some a → FirstDivergence e a (compare e a)) :
    FirstDivergence expected actual (components.findSome? (branch expected actual)) := by
  cases found : components.findSome? (branch expected actual) with
  | none =>
    rw [List.findSome?_eq_none_iff] at found
    rintro (_ | ⟨component, rest⟩) diverges
    · exact lockstep_agrees lockstep diverges
    · have visited := complete component (part_of_diverging diverges)
      exact branch_none (children component) (found component visited) rest diverges
  | some mismatch =>
    obtain ⟨before, component, after, rfl, here, nothing_before⟩ :=
      List.findSome?_eq_some_iff.mp found
    have first := branch_some lockstep (children component) here
    refine { first.toReports with earliest := ?_ }
    obtain ⟨start, location⟩ := first.starts
    rintro (_ | ⟨other, rest⟩) diverges
    · exact absurd diverges (lockstep_agrees lockstep)
    · rcases List.mem_append.mp (complete other (part_of_diverging diverges)) with early | late
      · exact absurd diverges
          (branch_none (children other) (nothing_before other early) rest)
      rcases List.mem_cons.mp late with rfl | later
      · exact first.earliest rest diverges
      · right
        rw [location]
        have tail := (List.pairwise_append.mp in_order).2.1
        exact .beside ((List.pairwise_cons.mp tail).1 other later) start rest

theorem compare_kinds {expected actual : Node} (differ : expected.kind ≠ actual.kind) :
    compare expected actual = some (.here expected actual) := by
  cases expected <;> cases actual <;> first | rfl | exact absurd rfl differ

theorem kinds_exact {expected actual : Node} (differ : expected.kind ≠ actual.kind) :
    FirstDivergence expected actual (compare expected actual) := by
  rw [compare_kinds differ]
  refine first_here (.kinds differ) ?_
  rintro ⟨e, a, in_expected, in_actual, -⟩
  cases in_expected
  cases in_actual
  exact differ rfl

theorem same_metadata_iff (e a : Blob) : e.sameMetadata a = true ↔
    e.contentType = a.contentType ∧ e.length = a.length ∧ e.digest = a.digest := by
  simp [Blob.sameMetadata, and_assoc]

theorem compare_blobs_divergent (e a : Blob) :
    compareBlobs e a ≠ none ↔ Divergent (some (.blob e)) (some (.blob a)) := by
  unfold compareBlobs
  constructor
  · intro reported
    split at reported
    next same =>
      split at reported
      next x y content other_content =>
        have differ : x ≠ y := by
          rintro rfl
          exact reported (if_pos rfl)
        exact .contents same content other_content differ
      next content other_content => exact .unloaded same content other_content
      next => contradiction
    next other =>
      rw [same_metadata_iff] at other
      exact .metadata (by tauto)
  · intro divergent
    cases divergent with
    | kinds differ => exact absurd rfl differ
    | metadata differ =>
      have other : ¬ e.sameMetadata a = true := by
        rw [same_metadata_iff]
        tauto
      simp [other]
    | contents same content other_content differ => simp [same, content, other_content, differ]
    | unloaded same content other_content => simp [same, content, other_content]

theorem compare_blobs_unloaded (e a : Blob) :
    compareBlobs e a = some .missingBlobFile ↔
      BothUnloaded (some (.blob e)) (some (.blob a)) := by
  unfold compareBlobs
  constructor
  · intro missing
    split at missing
    next same =>
      split at missing
      next => split at missing <;> contradiction
      next content other_content => exact ⟨e, a, rfl, rfl, same, content, other_content⟩
      next => contradiction
    next => contradiction
  · rintro ⟨_, _, ⟨⟩, ⟨⟩, same, content, other_content⟩
    simp [same, content, other_content]

theorem blobs_exact (e a : Blob) :
    FirstDivergence (.blob e) (.blob a) (compare (.blob e) (.blob a)) := by
  have divergent := compare_blobs_divergent e a
  have unloaded := compare_blobs_unloaded e a
  rw [compare]
  cases result : compareBlobs e a with
  | none =>
    rw [result] at divergent
    exact nothing_diverges nofun fun diverges => divergent.mpr diverges rfl
  | some reason =>
    rw [result] at divergent unloaded
    refine first_at_root (divergent.mp nofun) ?_
    rw [← unloaded, Option.some.injEq]

theorem leaves_exact {expected actual : Node} {agree : Prop} [Decidable agree]
    (apart : ¬ Lockstep expected actual) (loaded : ¬ BothUnloaded (some expected) (some actual))
    (divergent : ¬ agree → Divergent (some expected) (some actual))
    (agrees : agree → ¬ Divergent (some expected) (some actual)) :
    FirstDivergence expected actual (if agree then none else some (.here expected actual)) := by
  split
  next equal => exact nothing_diverges apart (agrees equal)
  next differ => exact first_here (divergent differ) loaded

theorem apart_exact {expected actual : Node} (apart : ¬ Lockstep expected actual) :
    FirstDivergence expected actual (compare expected actual) := by
  by_cases differ : expected.kind = actual.kind
  case neg => exact kinds_exact differ
  cases expected <;> cases actual <;> try contradiction
  case dictionary.dictionary es as => exact absurd (.dictionaries es as) apart
  case array.array es as =>
    have lengths : es.length ≠ as.length := fun same => apart (.arrays es as same)
    rw [compare, if_neg lengths]
    exact first_here (.lengths lengths) nofun
  case null.null =>
    refine nothing_diverges apart ?_
    rintro ⟨⟩
    contradiction
  case boolean.boolean e a =>
    refine leaves_exact apart nofun .booleans ?_
    rintro rfl ⟨⟩ <;> contradiction
  case number.number e a =>
    refine leaves_exact apart nofun (fun unequal => .numbers ?_) ?_
    · rwa [ne_eq, ← Number.equal_iff_value]
    · intro equal divergent
      cases divergent with
      | kinds differ => contradiction
      | numbers differ => exact differ ((Number.equal_iff_value e a).mp equal)
  case string.string e a =>
    refine leaves_exact apart nofun .strings ?_
    rintro rfl ⟨⟩ <;> contradiction
  case blob.blob e a => exact blobs_exact e a

def components : Node → Node → List Component
  | .dictionary es, .dictionary as =>
    es.map (fun entry => .property entry.1) ++
      (as.filter fun entry => !Entries.contains entry.1 es).map fun entry => .property entry.1
  | .array es, .array _ => (List.range es.length).map fun i => .index (i : Nat)
  | _, _ => []

theorem compare_entries_branches {es as entries : List (String × Node)}
    (found : ∀ entry ∈ entries, Entries.find? entry.1 es = some entry.2) :
    compareEntries as entries = (entries.map fun entry => Component.property entry.1).findSome?
      (branch (.dictionary es) (.dictionary as)) := by
  induction entries with
  | nil => rfl
  | cons entry rest ih =>
    obtain ⟨key, e⟩ := entry
    have here := found (key, e) List.mem_cons_self
    have in_expected : (dictionary es).get? [.property key] = some e := by rw [get_member, here]
    rw [compareEntries, List.map_cons, List.findSome?_cons,
      ih fun other later => found other (List.mem_cons_of_mem _ later)]
    cases present : Entries.find? key as with
    | none =>
      have not_in_actual : (dictionary as).get? [.property key] = none := by
        rw [get_member, present]
      rw [branch_only_expected in_expected not_in_actual]
    | some a =>
      have in_actual : (dictionary as).get? [.property key] = some a := by rw [get_member, present]
      rw [branch_shared in_expected in_actual]
      dsimp only
      cases compare e a <;> rfl

theorem first_extra_branches {es as entries : List (String × Node)}
    (found : ∀ entry ∈ entries, Entries.find? entry.1 as = some entry.2) :
    firstExtra es entries = ((entries.filter fun entry => !Entries.contains entry.1 es).map
      fun entry => Component.property entry.1).findSome?
        (branch (.dictionary es) (.dictionary as)) := by
  induction entries with
  | nil => rfl
  | cons entry rest ih =>
    obtain ⟨key, a⟩ := entry
    have here := found (key, a) List.mem_cons_self
    rw [firstExtra, List.filter_cons,
      ih fun other later => found other (List.mem_cons_of_mem _ later)]
    cases present : Entries.contains key es with
    | true => rfl
    | false =>
      have absent : Entries.find? key es = none := by simpa [Entries.contains] using present
      simp [branch, here, absent]

theorem compare_items_branches {es as : List Node} (index : Nat)
    (same_length : es.length = as.length) :
    compareItems index (es.drop index) (as.drop index) =
      ((List.range' index (es.length - index)).map fun i => Component.index (i : Nat)).findSome?
        (branch (.array es) (.array as)) := by
  induction remaining : es.length - index generalizing index with
  | zero =>
    rw [List.drop_of_length_le (by omega), List.drop_of_length_le (by omega)]
    rfl
  | succ n ih =>
    have inside : index < es.length := by omega
    have inside_actual : index < as.length := by omega
    have in_expected : (array es).get? [.index index] = some es[index] := by
      rw [get_element, List.getElem?_eq_getElem inside]
    have in_actual : (array as).get? [.index index] = some as[index] := by
      rw [get_element, List.getElem?_eq_getElem inside_actual]
    rw [List.drop_eq_getElem_cons inside, List.drop_eq_getElem_cons inside_actual, compareItems,
      ih (index + 1) (by omega), List.range'_succ, List.map_cons, List.findSome?_cons,
      branch_shared in_expected in_actual]
    cases compare es[index] as[index] <;> rfl

theorem compare_branches {expected actual : Node} (lockstep : Lockstep expected actual)
    (ordered : expected.Ordered) (actual_ordered : actual.Ordered) :
    compare expected actual =
      (components expected actual).findSome? (branch expected actual) := by
  cases lockstep with
  | dictionaries es as =>
    have found : ∀ entry ∈ es, Entries.find? entry.1 es = some entry.2 :=
      fun _ member => Entries.find_of_mem ordered.1 member
    have found_actual : ∀ entry ∈ as, Entries.find? entry.1 as = some entry.2 :=
      fun _ member => Entries.find_of_mem actual_ordered.1 member
    rw [compare, components, List.findSome?_append, compare_entries_branches found,
      first_extra_branches found_actual]
    cases List.findSome? (branch (dictionary es) (dictionary as))
      (es.map fun entry => .property entry.1) <;> rfl
  | arrays es as same_length =>
    rw [compare, if_pos same_length, components, List.range_eq_range']
    exact compare_items_branches 0 same_length

theorem components_in_order {expected actual : Node} (lockstep : Lockstep expected actual)
    (ordered : expected.Ordered) (actual_ordered : actual.Ordered) :
    (components expected actual).Pairwise (Precedes expected) := by
  cases lockstep with
  | dictionaries es as =>
    have present : ∀ entry ∈ es, Entries.contains entry.1 es = true := by
      intro entry member
      rw [Entries.contains, Entries.find_of_mem ordered.1 member]
      rfl
    -- the expected keys ascend, so do the extra ones, and these come after them
    refine List.pairwise_append.mpr ⟨?_, ?_, ?_⟩
    · refine List.pairwise_map.mpr (ordered.1.imp_of_mem fun first second ascending => ?_)
      exact .keys ((present _ first).trans (present _ second).symm) ascending
    · refine List.pairwise_map.mpr ((actual_ordered.1.filter _).imp_of_mem
        fun first second ascending => ?_)
      have absent := (List.mem_filter.mp first).2
      have also_absent := (List.mem_filter.mp second).2
      exact .keys (by simp_all) ascending
    · intro component in_expected other extra
      obtain ⟨entry, member, rfl⟩ := List.mem_map.mp in_expected
      obtain ⟨added, not_member, rfl⟩ := List.mem_map.mp extra
      exact .extra (present entry member) (by simpa using (List.mem_filter.mp not_member).2)
  | arrays es as same_length =>
    refine List.pairwise_map.mpr (List.pairwise_lt_range.imp fun ascending => ?_)
    exact .elements (by omega)

theorem index_of_element {items : List Node} {component : Component} {child : Node}
    (found : (array items).get? [component] = some child) :
    ∃ i : Nat, component = .index i ∧ i < items.length := by
  rcases child_cases found with ⟨_, _, other, -⟩ | ⟨_, i, same, position, item⟩
  · contradiction
  · cases same
    exact ⟨i, position, (List.getElem?_eq_some_iff.mp item).1⟩

theorem components_complete {expected actual : Node} (lockstep : Lockstep expected actual)
    {component : Component} (part : (expected.get? [component]).isSome = true ∨
      (actual.get? [component]).isSome = true) : component ∈ components expected actual := by
  cases lockstep with
  | dictionaries es as =>
    cases component with
    | index i => simp [get?] at part
    | property key =>
      simp only [get_member, Option.isSome_iff_exists] at part
      refine List.mem_append.mpr ?_
      cases present : Entries.find? key es with
      | some e => exact Or.inl (List.mem_map_of_mem (Entries.mem_of_find present))
      | none =>
        obtain ⟨a, extra⟩ : ∃ a, Entries.find? key as = some a := by simpa [present] using part
        have kept : (key, a) ∈ as.filter fun entry => !Entries.contains entry.1 es := by
          refine List.mem_filter.mpr ⟨Entries.mem_of_find extra, ?_⟩
          simp [Entries.contains, present]
        exact Or.inr (List.mem_map_of_mem kept)
  | arrays es as same_length =>
    obtain ⟨i, position, inside⟩ : ∃ i : Nat, component = .index i ∧ i < es.length := by
      rcases part with part | part
      · obtain ⟨child, found⟩ := Option.isSome_iff_exists.mp part
        exact index_of_element found
      · obtain ⟨child, found⟩ := Option.isSome_iff_exists.mp part
        rw [same_length]
        exact index_of_element found
    rw [position]
    exact List.mem_map_of_mem (List.mem_range.mpr inside)

theorem compare_first (expected actual : Node) (ordered : expected.Ordered)
    (actual_ordered : actual.Ordered) :
    FirstDivergence expected actual (compare expected actual) := by
  induction expected using child_induction generalizing actual with
  | step expected ih =>
    -- part by part only in lockstep, else at the root
    by_cases lockstep : Lockstep expected actual
    · rw [compare_branches lockstep ordered actual_ordered]
      refine first_of_branches lockstep (components_in_order lockstep ordered actual_ordered)
        (fun _ part => components_complete lockstep part) ?_
      intro component e a in_expected in_actual
      exact ih component e in_expected a (ordered_child ordered in_expected)
        (ordered_child actual_ordered in_actual)
    · exact apart_exact lockstep

/-- Nothing is reported exactly if the trees diverge nowhere, and a mismatch exactly if it is their
    first divergence. -/
theorem compare_exact (expected actual : Node) (ordered : expected.Ordered)
    (actual_ordered : actual.Ordered) (result : Option Mismatch) :
    compare expected actual = result ↔ FirstDivergence expected actual result := by
  have first := compare_first expected actual ordered actual_ordered
  constructor
  · rintro rfl
    exact first
  · exact first_divergence_unique first

theorem extra_key_is_first :
    (dictionary [("a", array [.number (.integer 1), .dictionary [("x", .null)]])]).Ordered ∧
    (dictionary [("a", array [.number (.integer 1),
      .dictionary [("x", .null), ("y", .boolean true)]]), ("b", .null)]).Ordered ∧
    FirstDivergence
      (dictionary [("a", array [.number (.integer 1), .dictionary [("x", .null)]])])
      (dictionary [("a", array [.number (.integer 1),
        .dictionary [("x", .null), ("y", .boolean true)]]), ("b", .null)])
      (some ⟨[.property "a", .index 1, .property "y"], none, some (.boolean true),
        .mismatchedProperty⟩) := by
  have ordered :
      (dictionary [("a", array [.number (.integer 1), .dictionary [("x", .null)]])]).Ordered := by
    simp [Ordered, OrderedEntries, OrderedItems, Entries.Ascending]
  have actual_ordered :
      (dictionary [("a", array [.number (.integer 1),
        .dictionary [("x", .null), ("y", .boolean true)]]), ("b", .null)]).Ordered := by
    simp [Ordered, OrderedEntries, OrderedItems, Entries.Ascending]
    decide
  exact ⟨ordered, actual_ordered, (compare_exact _ _ ordered actual_ordered _).mp rfl⟩

end Comparison
end DocAudit
