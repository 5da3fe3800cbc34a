import DocAudit.Proofs.AlikeTrees

/- A comparison and the one with the two trees exchanged. Both visit the same locations and find the
   same ones divergent, so both find something or neither does. Which divergence comes first depends
   on the order of the walk, and that asks which keys the expected dictionary has; where the two
   dictionaries of a location have the same keys, both walks take the same order and end at the same
   place. -/
namespace DocAudit

def Mismatch.swapped (mismatch : Mismatch) : Mismatch :=
  { mismatch with expected := mismatch.actual, actual := mismatch.expected }

namespace Comparison
open Node
variable {a b : Node}

def SameKeys (a b : Node) : Prop :=
  ∀ location es as, a.get? location = some (.dictionary es) →
    b.get? location = some (.dictionary as) →
    ∀ key, key ∈ Entries.keys es ↔ key ∈ Entries.keys as

theorem same_keys_iff_parts : SameKeys a b ↔
    (∀ es as, a = .dictionary es → b = .dictionary as →
      ∀ key, key ∈ Entries.keys es ↔ key ∈ Entries.keys as) ∧
    ∀ component x y, a.get? [component] = some x → b.get? [component] = some y →
      SameKeys x y := by
  constructor
  · intro same
    constructor
    · intro es as at_root other_at_root
      exact same [] es as (by rw [at_root]; rfl) (by rw [other_at_root]; rfl)
    · intro component x y found other_found location es as below other_below
      refine same (component :: location) es as ?_ ?_
      · rw [get_cons, found]
        exact below
      · rw [get_cons, other_found]
        exact other_below
  · intro parts location es as found other_found
    cases location with
    | nil => exact parts.1 es as (Option.some.inj found) (Option.some.inj other_found)
    | cons component rest =>
      rw [get_cons] at found other_found
      obtain ⟨x, first, later⟩ := Option.bind_eq_some_iff.mp found
      obtain ⟨y, other_first, other_later⟩ := Option.bind_eq_some_iff.mp other_found
      exact parts.2 component x y first other_first rest es as later other_later

theorem same_keys_leaf (leaf : a.isContainer = false) : SameKeys a b := by
  intro location es as found
  cases location with
  | nil =>
    cases found
    cases leaf
  | cons component rest =>
    rw [get_cons] at found
    obtain ⟨child, first, -⟩ := Option.bind_eq_some_iff.mp found
    rcases child_cases first with ⟨_, _, rfl, -⟩ | ⟨_, _, rfl, -⟩ <;> cases leaf

theorem lockstep_symm (lockstep : Lockstep a b) : Lockstep b a := by
  cases lockstep with
  | dictionaries es as => exact .dictionaries as es
  | arrays es as same_length => exact .arrays as es same_length.symm

theorem visited_symm {location : KeyPath} (visited : Visited a b location) :
    Visited b a location := by
  induction visited with
  | root a b => exact .root b a
  | shared lockstep found other_found _ ih =>
    exact .shared (lockstep_symm lockstep) other_found found ih
  | only_expected lockstep found missing =>
    exact .only_actual (lockstep_symm lockstep) missing found
  | only_actual lockstep missing found =>
    exact .only_expected (lockstep_symm lockstep) found missing

theorem diverges_symm {location : KeyPath} (diverges : Diverges a b location) :
    Diverges b a location :=
  ⟨visited_symm diverges.1, divergent_symm diverges.2⟩

theorem both_unloaded_symm {x y : Option Node} (unloaded : BothUnloaded x y) :
    BothUnloaded y x := by
  obtain ⟨e, o, rfl, rfl, same, no_content, no_other⟩ := unloaded
  exact ⟨o, e, rfl, rfl, same_metadata_symm same, no_other, no_content⟩

theorem reports_swapped {mismatch : Mismatch} (reports : Reports a b mismatch) :
    Reports b a mismatch.swapped where
  diverges := diverges_symm reports.diverges
  expected_value := reports.actual_value
  actual_value := reports.expected_value
  reason := reports.reason.trans ⟨both_unloaded_symm, both_unloaded_symm⟩

theorem contains_same {es as : List (String × Node)}
    (same : ∀ key, key ∈ Entries.keys es ↔ key ∈ Entries.keys as) (key : String) :
    Entries.contains key es = Entries.contains key as := by
  rw [Bool.eq_iff_iff, ← Entries.mem_keys_iff, ← Entries.mem_keys_iff]
  exact same key

theorem precedes_same_keys {c d : Component} (lockstep : Lockstep a b) (same : SameKeys a b)
    (precedes : Precedes a c d) : Precedes b c d := by
  cases lockstep with
  | dictionaries es as =>
    have contained := contains_same ((same_keys_iff_parts.mp same).1 es as rfl rfl)
    cases precedes with
    | keys alike ascending =>
      rw [contained, contained] at alike
      exact .keys alike ascending
    | extra present absent =>
      rw [contained] at present absent
      exact .extra present absent
  | arrays es as same_length =>
    cases precedes with
    | elements ascending => exact .elements ascending

theorem same_part (lockstep : Lockstep a b) (same : SameKeys a b) (component : Component) :
    (a.get? [component]).isSome = (b.get? [component]).isSome := by
  cases lockstep with
  | dictionaries es as =>
    cases component with
    | index i => rfl
    | property key =>
      rw [get_member, get_member]
      exact contains_same ((same_keys_iff_parts.mp same).1 es as rfl rfl) key
  | arrays es as same_length =>
    cases component with
    | property key => rfl
    | index i =>
      simp only [get?]
      split
      · rw [Bool.eq_iff_iff]
        simp [same_length]
      · rfl

theorem earlier_same_keys {location other : KeyPath} (visited : Visited a b location)
    (same : SameKeys a b) (earlier : Earlier a location other) : Earlier b location other := by
  induction visited generalizing other with
  | root a b =>
    cases earlier with
    | above => exact .above b _ _
  | shared lockstep found other_found _ ih =>
    cases earlier with
    | beside precedes => exact .beside (precedes_same_keys lockstep same precedes) _ _
    | within again earlier =>
      cases Option.some.inj (found.symm.trans again)
      exact .within other_found
        (ih ((same_keys_iff_parts.mp same).2 _ _ _ found other_found) earlier)
  | @only_expected _ _ _ component lockstep found missing =>
    have part := same_part lockstep same component
    rw [found, missing] at part
    cases part
  | @only_actual _ _ _ component lockstep missing found =>
    have part := same_part lockstep same component
    rw [found, missing] at part
    cases part

theorem first_swapped {mismatch : Mismatch} (same : SameKeys a b) (first : First a b mismatch) :
    First b a mismatch.swapped where
  toReports := reports_swapped first.toReports
  earliest := by
    intro location diverges
    rcases first.earliest location (diverges_symm diverges) with here | later
    · exact Or.inl here
    · exact Or.inr (earlier_same_keys first.diverges.1 same later)

theorem compare_swapped (ordered : a.Ordered) (other_ordered : b.Ordered) (same : SameKeys a b) :
    compare b a = (compare a b).map Mismatch.swapped := by
  cases reported : compare a b with
  | none => exact alike_symm ordered other_ordered reported
  | some mismatch =>
    have first := compare_first a b ordered other_ordered
    rw [reported] at first
    exact first_divergence_unique (compare_first b a other_ordered ordered)
      (first_swapped same first)

/-- Nothing is found in one order of the trees exactly if nothing is found in the other. If the
    dictionaries that both trees have in one place have the same keys, then both orders find the
    same divergence, at the same location and for the same reason, with the two values
    exchanged. -/
theorem comparison_symmetric (ordered : a.Ordered) (other_ordered : b.Ordered) :
    (compare a b = none ↔ compare b a = none) ∧
    (SameKeys a b → compare b a = (compare a b).map Mismatch.swapped) :=
  ⟨⟨alike_symm ordered other_ordered, alike_symm other_ordered ordered⟩,
    compare_swapped ordered other_ordered⟩

def numberAndRecord (n : Number) (x y : Node) : Node :=
  array [.number n, dictionary [("x", x), ("y", y)]]

def wholeNumberFirst : Node := numberAndRecord (.integer 1) null (.boolean true)

def floatFirst : Node :=
  numberAndRecord (.float ⟨false, ⟨1023, by decide⟩, ⟨0, by decide⟩⟩) (string "z") null

/-- The number one in two ways, and after it two dictionaries with the same keys. Both members
    differ, and it is the first key that is reported from either side. -/
theorem later_key_differs_too :
    wholeNumberFirst.Ordered ∧ floatFirst.Ordered ∧ SameKeys wholeNumberFirst floatFirst ∧
    compare wholeNumberFirst floatFirst =
      some ⟨[.index 1, .property "x"], some null, some (string "z"), .mismatchedProperty⟩ ∧
    compare floatFirst wholeNumberFirst =
      some ⟨[.index 1, .property "x"], some (string "z"), some null, .mismatchedProperty⟩ := by
  have ordered : wholeNumberFirst.Ordered := by
    simp [wholeNumberFirst, numberAndRecord, Ordered, OrderedEntries, OrderedItems,
      Entries.Ascending]
    decide
  have other_ordered : floatFirst.Ordered := by
    simp [floatFirst, numberAndRecord, Ordered, OrderedEntries, OrderedItems, Entries.Ascending]
    decide
  have same_record : SameKeys (dictionary [("x", null), ("y", .boolean true)])
      (dictionary [("x", string "z"), ("y", null)]) := by
    refine same_keys_iff_parts.mpr ⟨?_, fun component x y found _ => ?_⟩
    · rintro es as ⟨⟩ ⟨⟩ key
      exact Iff.rfl
    · rcases child_cases found with ⟨entries, key, at_root, rfl, entry⟩ | ⟨_, _, wrong, -⟩
      · cases at_root
        have member := Entries.mem_of_find entry
        simp only [List.mem_cons, Prod.mk.injEq, List.not_mem_nil, or_false] at member
        rcases member with ⟨-, rfl⟩ | ⟨-, rfl⟩ <;> exact same_keys_leaf rfl
      · cases wrong
  have same : SameKeys wholeNumberFirst floatFirst := by
    refine same_keys_iff_parts.mpr ⟨?_, fun component x y found other_found => ?_⟩
    · rintro es as ⟨⟩
    · obtain ⟨i, rfl, -⟩ := index_of_element found
      simp only [wholeNumberFirst, floatFirst, numberAndRecord, get_element] at found other_found
      rcases i with _ | _ | i <;> cases found
      · exact same_keys_leaf rfl
      · cases other_found
        exact same_record
  have reported : compare wholeNumberFirst floatFirst =
    some ⟨[.index 1, .property "x"], some null, some (string "z"), .mismatchedProperty⟩ := rfl
  refine ⟨ordered, other_ordered, same, reported, ?_⟩
  rw [(comparison_symmetric ordered other_ordered).2 same, reported]
  rfl

end Comparison
end DocAudit
