import DocAudit.Proofs.ExactComparison
import DocAudit.Proofs.IdenticalTrees

/- Trees between which the comparison finds nothing. Two nodes are alike if they do not diverge as a
   whole and have, in every place below them, either nothing or values that are alike. A tree is
   alike to one that is equal to it, and so to itself, if all its blobs are loaded; if not, its first
   blob without content is reported, for two sides without content are the one thing in which a value
   diverges from an equal one. -/
namespace DocAudit
namespace Comparison
open Node

def Matching : Option Node → Option Node → Prop
  | none, none => True
  | some e, some a => compare e a = none
  | _, _ => False

section alike
variable {expected actual : Node}

theorem branch_none_iff (expected actual : Node) (component : Component) :
    branch expected actual component = none ↔
      Matching (expected.get? [component]) (actual.get? [component]) := by
  unfold branch
  cases expected.get? [component] <;> cases actual.get? [component] <;> simp [Matching]

theorem not_divergent_kinds (agree : ¬ Divergent (some expected) (some actual)) :
    expected.kind = actual.kind := by
  by_contra differ
  exact agree (.kinds differ)

theorem lockstep_of_container {component : Component}
    (agree : ¬ Divergent (some expected) (some actual))
    (fits : expected.kind = component.container) : Lockstep expected actual := by
  have same_kind := not_divergent_kinds agree
  cases expected <;> cases actual <;> try contradiction
  case dictionary.dictionary es as => exact .dictionaries es as
  case array.array es as =>
    refine .arrays es as ?_
    by_contra lengths
    exact agree (.lengths lengths)
  all_goals cases component <;> contradiction

theorem lockstep_of_part {component : Component}
    (agree : ¬ Divergent (some expected) (some actual))
    (part : (expected.get? [component]).isSome = true ∨
      (actual.get? [component]).isSome = true) : Lockstep expected actual := by
  rcases part with part | part
  · obtain ⟨child, found⟩ := Option.isSome_iff_exists.mp part
    exact lockstep_of_container agree (fits_of_child found)
  · obtain ⟨child, found⟩ := Option.isSome_iff_exists.mp part
    exact lockstep_of_container agree ((not_divergent_kinds agree).trans (fits_of_child found))

theorem apart_alike_iff (apart : ¬ Lockstep expected actual) :
    compare expected actual = none ↔ ¬ Divergent (some expected) (some actual) := by
  have first := apart_exact apart
  rw [← diverges_root_iff]
  cases result : compare expected actual with
  | none =>
    rw [result] at first
    exact ⟨fun _ => first [], fun _ => rfl⟩
  | some mismatch =>
    rw [result] at first
    simp only [reduceCtorEq, false_iff, not_not]
    cases location : mismatch.location with
    | nil => rw [← location]; exact first.diverges
    | cons component rest =>
      have diverges := first.diverges
      rw [location] at diverges
      exact absurd (lockstep_of_below diverges) apart

theorem alike_iff (ordered : expected.Ordered) (actual_ordered : actual.Ordered) :
    compare expected actual = none ↔ ¬ Divergent (some expected) (some actual) ∧
      ∀ component, Matching (expected.get? [component]) (actual.get? [component]) := by
  have nowhere {component : Component} (missing : ¬ ((expected.get? [component]).isSome = true ∨
      (actual.get? [component]).isSome = true)) :
      Matching (expected.get? [component]) (actual.get? [component]) := by
    simp only [Option.isSome_iff_ne_none, ne_eq, not_or, not_not] at missing
    rw [missing.1, missing.2]
    trivial
  by_cases lockstep : Lockstep expected actual
  · rw [compare_branches lockstep ordered actual_ordered, List.findSome?_eq_none_iff]
    simp only [branch_none_iff]
    constructor
    · intro parts
      refine ⟨?_, fun component => ?_⟩
      · rw [← diverges_root_iff]
        exact lockstep_agrees lockstep
      · by_cases part : (expected.get? [component]).isSome = true ∨
          (actual.get? [component]).isSome = true
        · exact parts component (components_complete lockstep part)
        · exact nowhere part
    · intro parts component _
      exact parts.2 component
  -- two nodes that are not taken apart have no parts, or they diverge here
  · rw [apart_alike_iff lockstep]
    refine ⟨fun agree => ⟨agree, fun component => nowhere fun part => lockstep ?_⟩, And.left⟩
    exact lockstep_of_part agree part

end alike

theorem same_metadata_symm {e a : Blob} (same : e.sameMetadata a = true) :
    a.sameMetadata e = true := by
  rw [same_metadata_iff] at same ⊢
  exact ⟨same.1.symm, same.2.1.symm, same.2.2.symm⟩

theorem divergent_symm {e a : Option Node} (divergent : Divergent e a) : Divergent a e := by
  cases divergent with
  | no_actual e => exact .no_expected e
  | no_expected a => exact .no_actual a
  | kinds differ => exact .kinds (Ne.symm differ)
  | lengths differ => exact .lengths (Ne.symm differ)
  | booleans differ => exact .booleans (Ne.symm differ)
  | strings differ => exact .strings (Ne.symm differ)
  | numbers differ => exact .numbers (Ne.symm differ)
  | metadata differ => exact .metadata (differ.imp Ne.symm (Or.imp Ne.symm Ne.symm))
  | contents same content other_content differ =>
    exact .contents (same_metadata_symm same) other_content content (Ne.symm differ)
  | unloaded same no_content no_other =>
    exact .unloaded (same_metadata_symm same) no_other no_content

theorem matching_symm {x y : Option Node} (matching : Matching x y)
    (children : ∀ e a, x = some e → y = some a → compare e a = none → compare a e = none) :
    Matching y x := by
  cases x <;> cases y <;> try contradiction
  · trivial
  · exact children _ _ rfl rfl matching

theorem alike_symm {expected actual : Node} (ordered : expected.Ordered)
    (actual_ordered : actual.Ordered) (alike : compare expected actual = none) :
    compare actual expected = none := by
  induction expected using child_induction generalizing actual with
  | step expected ih =>
    rw [alike_iff ordered actual_ordered] at alike
    obtain ⟨agree, parts⟩ := alike
    rw [alike_iff actual_ordered ordered]
    refine ⟨fun divergent => agree (divergent_symm divergent), fun component => ?_⟩
    apply matching_symm (parts component)
    intro e a in_expected in_actual
    exact ih component e in_expected (ordered_child ordered in_expected)
      (ordered_child actual_ordered in_actual)

structure Alike (a b : Node) : Prop where
  ordered : a.Ordered
  other_ordered : b.Ordered
  nothing : compare a b = none

section parts
variable {a b x y : Node} {component : Component}

theorem Alike.agree (alike : Alike a b) : ¬ Divergent (some a) (some b) :=
  ((alike_iff alike.ordered alike.other_ordered).mp alike.nothing).1

theorem Alike.kinds (alike : Alike a b) : a.kind = b.kind := not_divergent_kinds alike.agree

theorem Alike.lockstep (alike : Alike a b) (fits : a.kind = component.container) :
    Lockstep a b :=
  lockstep_of_container alike.agree fits

theorem Alike.matching (alike : Alike a b) (component : Component) :
    Matching (a.get? [component]) (b.get? [component]) :=
  ((alike_iff alike.ordered alike.other_ordered).mp alike.nothing).2 component

theorem Alike.children (alike : Alike a b) (found : a.get? [component] = some x)
    (other_found : b.get? [component] = some y) : Alike x y where
  ordered := ordered_child alike.ordered found
  other_ordered := ordered_child alike.other_ordered other_found
  nothing := by
    have matching := alike.matching component
    rw [found, other_found] at matching
    exact matching

theorem Alike.missing_iff (alike : Alike a b) (component : Component) :
    a.get? [component] = none ↔ b.get? [component] = none := by
  have matching := alike.matching component
  cases found : a.get? [component] <;> cases other : b.get? [component] <;>
    simp_all [Matching]

theorem Alike.null_iff (alike : Alike a b) : a = .null ↔ b = .null := by
  have kinds := alike.kinds
  cases a <;> cases b <;> simp_all [kind]

end parts

section identical
variable {tree twin : Node}

theorem divergent_identical_iff (same : tree.identical twin = true) :
    Divergent (some tree) (some twin) ↔ ¬ HasContent tree := by
  constructor
  · intro divergent
    cases divergent with
    | unloaded _ no_content => exact fun content => content no_content
    | kinds differ => exact absurd (identical_kind same) differ
    | lengths differ => exact absurd (identical_items_length same) differ
    | booleans differ => exact absurd (eq_of_beq same) differ
    | strings differ => exact absurd (eq_of_beq same) differ
    | numbers differ =>
      exact absurd ((Number.equal_iff_value _ _).mp (Number.identical_equal same)) differ
    | metadata differ =>
      cases identical_blob same
      simp at differ
    | contents _ content other_content differ =>
      cases identical_blob same
      rw [content] at other_content
      exact absurd (Option.some.inj other_content) differ
  · intro unloaded
    cases tree <;> simp only [HasContent, not_true_eq_false, ne_eq, not_not] at unloaded
    case blob b =>
      rw [identical_blob same]
      exact .unloaded ((same_metadata_iff b b).mpr ⟨rfl, rfl, rfl⟩) unloaded unloaded

theorem lockstep_identical {child : Node} {component : Component}
    (same : tree.identical twin = true) (found : tree.get? [component] = some child) :
    Lockstep tree twin := by
  rcases child_cases found with ⟨entries, _, rfl, -, -⟩ | ⟨items, _, rfl, -, -⟩ <;>
    cases twin <;> try cases same
  case inl.dictionary others => exact .dictionaries entries others
  case inr.array others => exact .arrays items others (identical_items_length same)

theorem visited_identical {location : KeyPath} {value : Node} (same : tree.identical twin = true)
    (found : tree.get? location = some value) : Visited tree twin location := by
  induction location generalizing tree twin with
  | nil => exact .root tree twin
  | cons component rest ih =>
    rw [get_cons] at found
    obtain ⟨child, first, later⟩ := Option.bind_eq_some_iff.mp found
    obtain ⟨other, other_first, below⟩ := identical_found same first
    exact .shared (lockstep_identical same first) first other_first (ih below later)

theorem alike_identical_iff (same : tree.identical twin = true) (ordered : tree.Ordered)
    (twin_ordered : twin.Ordered) : compare tree twin = none ↔ tree.Loaded := by
  rw [loaded_iff_everywhere]
  induction tree using child_induction generalizing twin with
  | step node ih =>
    rw [alike_iff ordered twin_ordered, everywhere_iff_children (ordered_keys ordered),
      divergent_identical_iff same, not_not]
    refine and_congr_right fun _ => forall_congr' fun component => ?_
    cases found : node.get? [component] with
    | none => simp [identical_missing same found, Matching]
    | some child =>
      obtain ⟨other, other_found, below⟩ := identical_found same found
      simp only [other_found, Matching, Option.some.injEq, forall_eq']
      exact ih component child found below (ordered_child ordered found)
        (ordered_child twin_ordered other_found)

/-- The blob without content that comes first, in the order of the locations. -/
structure FirstUnloaded (tree : Node) (location : KeyPath) (blob : Blob) : Prop where
  found : tree.get? location = some (.blob blob)
  no_content : blob.content = none
  earliest : ∀ other b, tree.get? other = some (.blob b) → b.content = none →
    other = location ∨ Earlier tree location other

theorem unloaded_diverges {location : KeyPath} {blob : Blob} (same : tree.identical twin = true)
    (found : tree.get? location = some (.blob blob)) (no_content : blob.content = none) :
    Diverges tree twin location := by
  refine ⟨visited_identical same found, ?_⟩
  obtain ⟨other, other_found, equal⟩ := identical_found same found
  rw [found, other_found, divergent_identical_iff equal]
  exact fun content => content no_content

theorem diverges_identical_unloaded {location : KeyPath} (same : tree.identical twin = true)
    (diverges : Diverges tree twin location) :
    ∃ blob, tree.get? location = some (.blob blob) ∧ twin.get? location = some (.blob blob) ∧
      blob.content = none := by
  obtain ⟨-, divergent⟩ := diverges
  have parts := identical_at same location
  generalize tree.get? location = value at divergent parts
  generalize twin.get? location = other at divergent parts
  cases parts with
  | none => cases divergent
  | @some value other equal =>
    rw [divergent_identical_iff equal] at divergent
    cases value <;> simp only [HasContent, not_true_eq_false, ne_eq, not_not] at divergent
    case blob b => exact ⟨b, rfl, by rw [identical_blob equal], divergent⟩

theorem unloaded_identical (same : tree.identical twin = true) (ordered : tree.Ordered)
    (twin_ordered : twin.Ordered) (unloaded : ¬ tree.Loaded) :
    ∃ location blob, FirstUnloaded tree location blob ∧
      compare tree twin =
        some ⟨location, some (.blob blob), some (.blob blob), .missingBlobFile⟩ := by
  have first := compare_first tree twin ordered twin_ordered
  cases reported : compare tree twin with
  | none => exact absurd ((alike_identical_iff same ordered twin_ordered).mp reported) unloaded
  | some mismatch =>
    rw [reported] at first
    obtain ⟨location, e, a, reason⟩ := mismatch
    obtain ⟨blob, found, other_found, no_content⟩ :=
      diverges_identical_unloaded same first.diverges
    have expected_value : e = some (.blob blob) := first.expected_value.trans found
    have actual_value : a = some (.blob blob) := first.actual_value.trans other_found
    subst expected_value actual_value
    have missing : reason = .missingBlobFile := first.reason.mpr
      ⟨blob, blob, rfl, rfl, (same_metadata_iff blob blob).mpr ⟨rfl, rfl, rfl⟩, no_content,
        no_content⟩
    subst missing
    refine ⟨location, blob, ⟨found, no_content, fun other b at_other no_other => ?_⟩, rfl⟩
    exact first.earliest other (unloaded_diverges same at_other no_other)

theorem alike_self_iff (ordered : tree.Ordered) : compare tree tree = none ↔ tree.Loaded :=
  alike_identical_iff (identical_self tree) ordered ordered

theorem unloaded_self (ordered : tree.Ordered) (unloaded : ¬ tree.Loaded) :
    ∃ location blob, FirstUnloaded tree location blob ∧
      compare tree tree =
        some ⟨location, some (.blob blob), some (.blob blob), .missingBlobFile⟩ :=
  unloaded_identical (identical_self tree) ordered ordered unloaded

end identical
end Comparison
end DocAudit
