import DocAudit.Proofs.AlikeTrees

/- To be found equal by the comparison is an equivalence relation on trees whose blobs are all loaded.
   There two nodes agree as a whole exactly if they have the same outline, and what two trees have in
   common with a third they have in common with each other, level by level. A blob that is not loaded
   breaks this twice: a tree with one is not found equal to itself, and between two loaded blobs with
   different contents it agrees with both. -/
namespace DocAudit
namespace Comparison
open Node

/-- What the comparison looks at in a node as a whole, if all blobs are loaded. -/
inductive Outline where
  | dictionary
  | array (length : Nat)
  | null
  | boolean (b : Bool)
  | number (value : Rat)
  | string (s : String)
  | blob (b : Blob)

def outline : Node → Outline
  | .dictionary _ => .dictionary
  | .array items => .array items.length
  | .null => .null
  | .boolean b => .boolean b
  | .number n => .number n.value
  | .string s => .string s
  | .blob b => .blob b

variable {a b c : Node}

theorem blobs_agree {x y : Blob} (content : x.content ≠ none) (other_content : y.content ≠ none)
    (agree : ¬ Divergent (some (.blob x)) (some (.blob y))) : x = y := by
  have metadata : x.contentType = y.contentType ∧ x.length = y.length ∧ x.digest = y.digest := by
    by_contra differ
    exact agree (.metadata (by tauto))
  obtain ⟨p, held⟩ := Option.ne_none_iff_exists'.mp content
  obtain ⟨q, other_held⟩ := Option.ne_none_iff_exists'.mp other_content
  have contents : p = q := by
    by_contra differ
    exact agree (.contents ((same_metadata_iff x y).mpr metadata) held other_held differ)
  obtain ⟨_, _, _, _⟩ := x
  obtain ⟨_, _, _, _⟩ := y
  simp_all

theorem agree_iff_outline (content : HasContent a) (other_content : HasContent b) :
    ¬ Divergent (some a) (some b) ↔ outline a = outline b := by
  constructor
  · intro agree
    have kinds := not_divergent_kinds agree
    cases a <;> cases b <;> try contradiction
    case dictionary.dictionary => rfl
    case null.null => rfl
    case array.array as bs =>
      by_contra differ
      exact agree (.lengths fun same => differ (congrArg Outline.array same))
    case boolean.boolean x y =>
      by_contra differ
      exact agree (.booleans fun same => differ (congrArg Outline.boolean same))
    case number.number x y =>
      by_contra differ
      exact agree (.numbers fun same => differ (congrArg Outline.number same))
    case string.string x y =>
      by_contra differ
      exact agree (.strings fun same => differ (congrArg Outline.string same))
    case blob.blob x y => exact congrArg Outline.blob (blobs_agree content other_content agree)
  · intro same divergent
    cases divergent with
    | kinds differ =>
      cases a <;> cases b <;> first | exact differ rfl | cases same
    | lengths differ => exact differ (Outline.array.inj same)
    | booleans differ => exact differ (Outline.boolean.inj same)
    | strings differ => exact differ (Outline.string.inj same)
    | numbers differ => exact differ (Outline.number.inj same)
    | metadata differ =>
      cases Outline.blob.inj same
      simp at differ
    | contents _ held other_held differ =>
      cases Outline.blob.inj same
      exact differ (Option.some.inj (held.symm.trans other_held))
    | unloaded _ no_content => exact content no_content

theorem matching_trans {x y z : Option Node} (first : Matching x y) (second : Matching y z)
    (children : ∀ e a o, x = some e → y = some a → z = some o → compare e a = none →
      compare a o = none → compare e o = none) : Matching x z := by
  cases x <;> cases y <;> cases z <;> try contradiction
  · trivial
  · exact children _ _ _ rfl rfl rfl first second

structure Complete (tree : Node) : Prop where
  ordered : tree.Ordered
  loaded : tree.Loaded

theorem Complete.child {child : Node} {component : Component} (complete : Complete a)
    (found : a.get? [component] = some child) : Complete child :=
  ⟨ordered_child complete.ordered found, loaded_child complete.loaded found⟩

theorem Complete.content (complete : Complete a) : HasContent a :=
  holds_here ((loaded_iff_everywhere a).mp complete.loaded)

theorem alike_trans (a_complete : Complete a) (b_complete : Complete b) (c_complete : Complete c)
    (first : compare a b = none) (second : compare b c = none) : compare a c = none := by
  induction a using child_induction generalizing b c with
  | step a ih =>
    rw [alike_iff a_complete.ordered b_complete.ordered] at first
    rw [alike_iff b_complete.ordered c_complete.ordered] at second
    rw [alike_iff a_complete.ordered c_complete.ordered]
    constructor
    · rw [agree_iff_outline a_complete.content c_complete.content]
      calc
        outline a = outline b :=
          (agree_iff_outline a_complete.content b_complete.content).mp first.1
        _ = outline c := (agree_iff_outline b_complete.content c_complete.content).mp second.1
    · intro component
      refine matching_trans (first.2 component) (second.2 component) ?_
      intro x y z in_a in_b in_c
      exact ih component x in_a (a_complete.child in_a) (b_complete.child in_b)
        (c_complete.child in_c)

theorem loaded_identical (same : a.identical b = true) (loaded : a.Loaded) : b.Loaded := by
  rw [loaded_iff_everywhere] at loaded ⊢
  exact everywhere_identical respects_content same loaded

/-- Two trees that are equal in structure are found equal exactly if all their blobs are loaded; if
    not, the report is that there is nothing to compare for the first blob without content. Among
    the trees whose blobs are all loaded, to be found equal is an equivalence relation. -/
theorem equal_trees_compared :
    (∀ a b : Node, a.Ordered → b.Ordered → a.identical b = true →
      (compare a b = none ↔ a.Loaded ∧ b.Loaded) ∧
      (¬ (a.Loaded ∧ b.Loaded) → ∃ location blob, FirstUnloaded a location blob ∧
        compare a b =
          some ⟨location, some (.blob blob), some (.blob blob), .missingBlobFile⟩)) ∧
    Equivalence fun a b : { tree : Node // Complete tree } => compare a.val b.val = none := by
  constructor
  · intro a b ordered other_ordered same
    have both : a.Loaded ∧ b.Loaded ↔ a.Loaded := and_iff_left_of_imp (loaded_identical same)
    rw [both]
    exact ⟨alike_identical_iff same ordered other_ordered,
      unloaded_identical same ordered other_ordered⟩
  · constructor
    · intro a
      exact (alike_self_iff a.property.ordered).mpr a.property.loaded
    · intro a b nothing
      exact alike_symm a.property.ordered b.property.ordered nothing
    · intro a b c first second
      exact alike_trans a.property b.property c.property first second

def zeroAndBlobs (negative : Bool) : Node :=
  .dictionary [("a", .number (.float (.zero negative))),
    ("b", .array [.blob ⟨"text/plain", 0, "d", some []⟩, .blob ⟨"text/plain", 1, "e", none⟩]),
    ("c", .blob ⟨"text/plain", 2, "f", none⟩)]

theorem first_of_two_unloaded :
    (zeroAndBlobs false).identical (zeroAndBlobs true) = true ∧
    FirstUnloaded (zeroAndBlobs false) [.property "b", .index 1] ⟨"text/plain", 1, "e", none⟩ ∧
    compare (zeroAndBlobs false) (zeroAndBlobs true) =
      some ⟨[.property "b", .index 1], some (.blob ⟨"text/plain", 1, "e", none⟩),
        some (.blob ⟨"text/plain", 1, "e", none⟩), .missingBlobFile⟩ := by
  have ordered (negative : Bool) : (zeroAndBlobs negative).Ordered := by
    simp [zeroAndBlobs, Ordered, OrderedEntries, OrderedItems, Entries.Ascending]
    decide
  have unloaded : ¬ ((zeroAndBlobs false).Loaded ∧ (zeroAndBlobs true).Loaded) := by
    simp [zeroAndBlobs, Loaded, LoadedEntries, LoadedItems]
  have same : (zeroAndBlobs false).identical (zeroAndBlobs true) = true := rfl
  obtain ⟨location, blob, first, reported⟩ :=
    (equal_trees_compared.1 _ _ (ordered false) (ordered true) same).2 unloaded
  have found : compare (zeroAndBlobs false) (zeroAndBlobs true) =
      some ⟨[.property "b", .index 1], some (.blob ⟨"text/plain", 1, "e", none⟩),
        some (.blob ⟨"text/plain", 1, "e", none⟩), .missingBlobFile⟩ := rfl
  cases found.symm.trans reported
  exact ⟨same, first, found⟩

end Comparison
end DocAudit
