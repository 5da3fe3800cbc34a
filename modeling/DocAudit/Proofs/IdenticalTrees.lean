import DocAudit.Proofs.Trees

/- Structurally equal trees. Every tree is equal to itself in this sense, and two equal trees have in
   every place equal values or both nothing. Equal leaves may still be told apart, for the two zeros
   are equal; so what is carried over from one tree to the other has to respect equality. -/
namespace DocAudit

theorem Number.identical_self (n : Number) : n.identical n = true := by
  cases n with
  | integer n => simp [identical]
  | float x => simp [identical, Binary64.equal]

theorem Number.identical_equal {m n : Number} (same : m.identical n = true) :
    m.equal n = true := by
  cases m <;> cases n <;> first | exact same | cases same

namespace Node

mutual

theorem identical_self : ∀ node : Node, node.identical node = true
  | .dictionary entries => identical_entries_self entries
  | .array items => identical_items_self items
  | .null => rfl
  | .boolean b => beq_self_eq_true b
  | .number n => n.identical_self
  | .string s => beq_self_eq_true s
  | .blob b => beq_self_eq_true b

theorem identical_items_self : ∀ items, identicalItems items items = true
  | [] => rfl
  | item :: rest => by
    rw [identicalItems, identical_self item, identical_items_self rest]
    rfl

theorem identical_entries_self : ∀ entries, identicalEntries entries entries = true
  | [] => rfl
  | (key, value) :: rest => by
    rw [identicalEntries, beq_self_eq_true, identical_self value, identical_entries_self rest]
    rfl

end

def IdenticalParts : Option Node → Option Node → Prop :=
  Option.Rel fun a b => a.identical b = true

section parts
variable {a b : Node}

theorem identical_kind (same : a.identical b = true) : a.kind = b.kind := by
  cases a <;> cases b <;> first | rfl | cases same

theorem identical_items_length {as bs : List Node} (same : identicalItems as bs = true) :
    as.length = bs.length := by
  induction as generalizing bs with
  | nil => cases bs <;> first | rfl | cases same
  | cons a as ih =>
    cases bs with
    | nil => cases same
    | cons b bs =>
      rw [identicalItems, Bool.and_eq_true] at same
      simp only [List.length_cons, ih same.2]

theorem identical_element {as bs : List Node} (same : identicalItems as bs = true) (i : Nat) :
    IdenticalParts as[i]? bs[i]? := by
  induction as generalizing bs i with
  | nil => cases bs <;> first | exact .none | cases same
  | cons a as ih =>
    cases bs with
    | nil => cases same
    | cons b bs =>
      rw [identicalItems, Bool.and_eq_true] at same
      cases i with
      | zero => exact .some same.1
      | succ i => exact ih same.2 i

theorem identical_entry {as bs : List (String × Node)} (same : identicalEntries as bs = true)
    (key : String) : IdenticalParts (Entries.find? key as) (Entries.find? key bs) := by
  induction as generalizing bs with
  | nil => cases bs <;> first | exact .none | cases same
  | cons entry as ih =>
    cases bs with
    | nil => cases same
    | cons other bs =>
      obtain ⟨j, a⟩ := entry
      obtain ⟨k, b⟩ := other
      simp only [identicalEntries, Bool.and_eq_true, beq_iff_eq] at same
      obtain ⟨⟨rfl, first⟩, rest⟩ := same
      simp only [Entries.find?]
      split
      · exact .some first
      · exact ih rest

theorem identical_child (same : a.identical b = true) (component : Component) :
    IdenticalParts (a.get? [component]) (b.get? [component]) := by
  cases a <;> cases b <;> try cases same
  case dictionary.dictionary as bs =>
    cases component with
    | index i => exact .none
    | property key =>
      rw [get_member, get_member]
      exact identical_entry same key
  case array.array as bs =>
    cases component with
    | property key => exact .none
    | index i =>
      by_cases counted : 0 ≤ i
      · obtain ⟨n, rfl⟩ := Int.eq_ofNat_of_zero_le counted
        rw [get_element, get_element]
        exact identical_element same n
      · simp only [get?, counted, ↓reduceIte]
        exact .none
  all_goals cases component <;> exact .none

theorem identical_at (same : a.identical b = true) (location : KeyPath) :
    IdenticalParts (a.get? location) (b.get? location) := by
  induction location generalizing a b with
  | nil => exact .some same
  | cons component rest ih =>
    rw [get_cons a, get_cons b]
    have child := identical_child same component
    generalize a.get? [component] = x at child
    generalize b.get? [component] = y at child
    cases child with
    | none => exact .none
    | some below => exact ih below

theorem identical_found {x : Node} {location : KeyPath} (same : a.identical b = true)
    (found : a.get? location = some x) :
    ∃ y, b.get? location = some y ∧ x.identical y = true := by
  have parts := identical_at same location
  rw [found] at parts
  generalize b.get? location = y at parts
  cases parts with
  | some equal => exact ⟨_, rfl, equal⟩

theorem identical_missing {location : KeyPath} (same : a.identical b = true)
    (missing : a.get? location = none) : b.get? location = none := by
  have parts := identical_at same location
  rw [missing] at parts
  generalize b.get? location = y at parts ⊢
  cases parts
  rfl

theorem identical_blob {blob : Blob} (same : (Node.blob blob).identical b = true) :
    b = .blob blob := by
  cases b <;> try cases same
  case blob other => rw [eq_of_beq same]

end parts

mutual

theorem everywhere_identical {holds : Node → Prop}
    (respects : ∀ x y : Node, x.identical y = true → holds x → holds y) {a b : Node}
    (same : a.identical b = true) (everywhere : a.Everywhere holds) : b.Everywhere holds := by
  cases a <;> cases b
  case dictionary.dictionary as bs =>
    exact ⟨respects _ _ same everywhere.1,
      everywhere_identical_entries respects same everywhere.2⟩
  case array.array as bs =>
    exact ⟨respects _ _ same everywhere.1, everywhere_identical_items respects same everywhere.2⟩
  all_goals first | exact respects _ _ same everywhere | cases same

theorem everywhere_identical_items {holds : Node → Prop}
    (respects : ∀ x y : Node, x.identical y = true → holds x → holds y) {as bs : List Node}
    (same : identicalItems as bs = true) (everywhere : EverywhereItems holds as) :
    EverywhereItems holds bs := by
  cases as <;> cases bs
  case cons.cons a as b bs =>
    rw [identicalItems, Bool.and_eq_true] at same
    exact ⟨everywhere_identical respects same.1 everywhere.1,
      everywhere_identical_items respects same.2 everywhere.2⟩
  all_goals trivial

theorem everywhere_identical_entries {holds : Node → Prop}
    (respects : ∀ x y : Node, x.identical y = true → holds x → holds y)
    {as bs : List (String × Node)} (same : identicalEntries as bs = true)
    (everywhere : EverywhereEntries holds as) : EverywhereEntries holds bs := by
  cases as with
  | nil => cases bs <;> trivial
  | cons entry as =>
    cases bs with
    | nil => cases same
    | cons other bs =>
      obtain ⟨j, a⟩ := entry
      obtain ⟨k, b⟩ := other
      simp only [identicalEntries, Bool.and_eq_true] at same
      exact ⟨everywhere_identical respects same.1.2 everywhere.1,
        everywhere_identical_entries respects same.2 everywhere.2⟩

end

theorem respects_content (x y : Node) (same : x.identical y = true) (content : HasContent x) :
    HasContent y := by
  cases x <;> try (cases y <;> first | trivial | cases same)
  case blob blob =>
    rw [identical_blob same]
    exact content

end Node
end DocAudit
