import DocAudit.Comparison
import DocAudit.Proofs.Trees

/- What a comparison reports: the first location of the walk at which the trees diverge, with the
   values that both have there, or nothing if they diverge nowhere. Which locations the walk visits,
   which of them are divergent and which of two comes first are said here without the comparison:
   a location is visited if both trees can be entered along it up to its last component. -/
namespace DocAudit
namespace Comparison
open Node

inductive Lockstep : Node → Node → Prop
  | dictionaries (es as : List (String × Node)) : Lockstep (.dictionary es) (.dictionary as)
  | arrays (es as : List Node) (same_length : es.length = as.length) :
      Lockstep (.array es) (.array as)

inductive Visited : Node → Node → KeyPath → Prop
  | root (expected actual : Node) : Visited expected actual []
  | shared {expected actual e a : Node} {component : Component} {rest : KeyPath}
      (lockstep : Lockstep expected actual) (in_expected : expected.get? [component] = some e)
      (in_actual : actual.get? [component] = some a) (visited : Visited e a rest) :
      Visited expected actual (component :: rest)
  | only_expected {expected actual e : Node} {component : Component}
      (lockstep : Lockstep expected actual) (in_expected : expected.get? [component] = some e)
      (not_in_actual : actual.get? [component] = none) : Visited expected actual [component]
  | only_actual {expected actual a : Node} {component : Component}
      (lockstep : Lockstep expected actual) (not_in_expected : expected.get? [component] = none)
      (in_actual : actual.get? [component] = some a) : Visited expected actual [component]

/-- Two values diverge as a whole, whatever may be said of their parts. -/
inductive Divergent : Option Node → Option Node → Prop
  | no_actual (e : Node) : Divergent (some e) none
  | no_expected (a : Node) : Divergent none (some a)
  | kinds {e a : Node} (differ : e.kind ≠ a.kind) : Divergent (some e) (some a)
  | lengths {es as : List Node} (differ : es.length ≠ as.length) :
      Divergent (some (.array es)) (some (.array as))
  | booleans {e a : Bool} (differ : e ≠ a) : Divergent (some (.boolean e)) (some (.boolean a))
  | strings {e a : String} (differ : e ≠ a) : Divergent (some (.string e)) (some (.string a))
  | numbers {e a : Number} (differ : e.value ≠ a.value) :
      Divergent (some (.number e)) (some (.number a))
  | metadata {e a : Blob}
      (differ : e.contentType ≠ a.contentType ∨ e.length ≠ a.length ∨ e.digest ≠ a.digest) :
      Divergent (some (.blob e)) (some (.blob a))
  | contents {e a : Blob} {x y : List UInt8} (same : e.sameMetadata a = true)
      (content : e.content = some x) (other_content : a.content = some y) (differ : x ≠ y) :
      Divergent (some (.blob e)) (some (.blob a))
  | unloaded {e a : Blob} (same : e.sameMetadata a = true) (no_content : e.content = none)
      (no_other : a.content = none) : Divergent (some (.blob e)) (some (.blob a))

def BothUnloaded (expected actual : Option Node) : Prop :=
  ∃ e a : Blob, expected = some (.blob e) ∧ actual = some (.blob a) ∧ e.sameMetadata a = true ∧
    e.content = none ∧ a.content = none

/-- The order of the parts: the keys that the expected dictionary has come before all others, and
    keys that are alike in this ascend. -/
inductive Precedes : Node → Component → Component → Prop
  | keys {entries : List (String × Node)} {j k : String}
      (alike : Entries.contains j entries = Entries.contains k entries)
      (ascending : Ord.compare j k = .lt) :
      Precedes (.dictionary entries) (.property j) (.property k)
  | extra {entries : List (String × Node)} {j k : String}
      (present : Entries.contains j entries = true) (absent : Entries.contains k entries = false) :
      Precedes (.dictionary entries) (.property j) (.property k)
  | elements {items : List Node} {i j : Int} (ascending : i < j) :
      Precedes (.array items) (.index i) (.index j)

/-- The order of the locations: depth first, each before the locations below it. -/
inductive Earlier : Node → KeyPath → KeyPath → Prop
  | above (expected : Node) (component : Component) (rest : KeyPath) :
      Earlier expected [] (component :: rest)
  | beside {expected : Node} {c d : Component} (precedes : Precedes expected c d)
      (rest other : KeyPath) : Earlier expected (c :: rest) (d :: other)
  | within {expected child : Node} {component : Component} {rest other : KeyPath}
      (found : expected.get? [component] = some child) (earlier : Earlier child rest other) :
      Earlier expected (component :: rest) (component :: other)

def Diverges (expected actual : Node) (location : KeyPath) : Prop :=
  Visited expected actual location ∧ Divergent (expected.get? location) (actual.get? location)

structure Reports (expected actual : Node) (mismatch : Mismatch) : Prop where
  diverges : Diverges expected actual mismatch.location
  expected_value : mismatch.expected = expected.get? mismatch.location
  actual_value : mismatch.actual = actual.get? mismatch.location
  reason : mismatch.reason = .missingBlobFile ↔ BothUnloaded mismatch.expected mismatch.actual

structure First (expected actual : Node) (mismatch : Mismatch) : Prop
    extends Reports expected actual mismatch where
  earliest : ∀ location, Diverges expected actual location →
    location = mismatch.location ∨ Earlier expected mismatch.location location

def FirstDivergence (expected actual : Node) : Option Mismatch → Prop
  | none => ∀ location, ¬ Diverges expected actual location
  | some mismatch => First expected actual mismatch

theorem precedes_asymmetric {expected : Node} {c d : Component} (forth : Precedes expected c d) :
    ¬ Precedes expected d c := by
  intro back
  cases forth with
  | keys alike ascending =>
    cases back with
    | keys _ descending =>
      rw [Std.OrientedCmp.gt_of_lt descending] at ascending
      contradiction
    | extra present absent => simp_all
  | extra present absent => cases back <;> simp_all
  | elements ascending =>
    cases back with
    | elements descending => omega

theorem precedes_irreflexive (expected : Node) (c : Component) : ¬ Precedes expected c c :=
  fun precedes => precedes_asymmetric precedes precedes

theorem earlier_asymmetric {expected : Node} {p q : KeyPath} (forth : Earlier expected p q) :
    ¬ Earlier expected q p := by
  induction forth with
  | above => intro back; cases back
  | beside precedes =>
    intro back
    cases back with
    | beside other => exact precedes_asymmetric precedes other
    | within => exact precedes_irreflexive _ _ precedes
  | within found _ ih =>
    intro back
    cases back with
    | beside other => exact precedes_irreflexive _ _ other
    | within again earlier =>
      cases Option.some.inj (found.symm.trans again)
      exact ih earlier

theorem first_unique {expected actual : Node} {m n : Mismatch} (first : First expected actual m)
    (also_first : First expected actual n) : m = n := by
  have same_location : m.location = n.location := by
    rcases first.earliest _ also_first.diverges with same | later
    · exact same.symm
    rcases also_first.earliest _ first.diverges with same | earlier
    · exact same
    · exact absurd earlier (earlier_asymmetric later)
  have same_expected : m.expected = n.expected := by
    rw [first.expected_value, also_first.expected_value, same_location]
  have same_actual : m.actual = n.actual := by
    rw [first.actual_value, also_first.actual_value, same_location]
  have same_reason : m.reason = .missingBlobFile ↔ n.reason = .missingBlobFile := by
    rw [first.reason, also_first.reason, same_expected, same_actual]
  cases m with
  | mk _ _ _ reason =>
    cases n with
    | mk _ _ _ other => cases reason <;> cases other <;> simp_all

theorem first_divergence_unique {expected actual : Node} {r s : Option Mismatch}
    (first : FirstDivergence expected actual r) (also_first : FirstDivergence expected actual s) :
    r = s := by
  cases r with
  | none =>
    cases s with
    | none => rfl
    | some n => exact absurd also_first.diverges (first n.location)
  | some m =>
    cases s with
    | none => exact absurd first.diverges (also_first m.location)
    | some n => rw [first_unique first also_first]

theorem diverges_root_iff (expected actual : Node) :
    Diverges expected actual [] ↔ Divergent (some expected) (some actual) := by
  constructor
  · exact fun diverges => diverges.2
  · exact fun divergent => ⟨.root expected actual, divergent⟩

theorem lockstep_agrees {expected actual : Node} (lockstep : Lockstep expected actual) :
    ¬ Diverges expected actual [] := by
  rw [diverges_root_iff]
  intro divergent
  cases lockstep with
  | dictionaries =>
    cases divergent with
    | kinds differ => exact differ rfl
  | arrays es as same_length =>
    cases divergent with
    | kinds differ => exact differ rfl
    | lengths differ => exact differ same_length

theorem lockstep_of_below {expected actual : Node} {component : Component} {rest : KeyPath}
    (diverges : Diverges expected actual (component :: rest)) : Lockstep expected actual := by
  cases diverges.1 <;> assumption

theorem diverges_shared_iff {expected actual e a : Node} {component : Component} {rest : KeyPath}
    (lockstep : Lockstep expected actual) (in_expected : expected.get? [component] = some e)
    (in_actual : actual.get? [component] = some a) :
    Diverges expected actual (component :: rest) ↔ Diverges e a rest := by
  unfold Diverges
  rw [get_cons expected, get_cons actual, in_expected, in_actual, Option.bind_some,
    Option.bind_some]
  refine and_congr_left fun _ => ⟨?_, Visited.shared lockstep in_expected in_actual⟩
  intro visited
  cases visited <;> simp_all

theorem diverges_single_iff {expected actual : Node} {component : Component} {rest : KeyPath}
    (lockstep : Lockstep expected actual)
    (single : (expected.get? [component]).isSome ≠ (actual.get? [component]).isSome) :
    Diverges expected actual (component :: rest) ↔ rest = [] := by
  constructor
  · rintro ⟨visited, -⟩
    cases visited <;> simp_all
  · rintro rfl
    cases in_expected : expected.get? [component] with
    | some e =>
      have not_in_actual : actual.get? [component] = none := by simp_all
      exact ⟨.only_expected lockstep in_expected not_in_actual,
        by rw [in_expected, not_in_actual]; exact .no_actual e⟩
    | none =>
      obtain ⟨a, in_actual⟩ : ∃ a, actual.get? [component] = some a := by
        rw [← Option.ne_none_iff_exists']
        simp_all
      exact ⟨.only_actual lockstep in_expected in_actual,
        by rw [in_expected, in_actual]; exact .no_expected a⟩

theorem part_of_diverging {expected actual : Node} {component : Component} {rest : KeyPath}
    (diverges : Diverges expected actual (component :: rest)) :
    (expected.get? [component]).isSome = true ∨ (actual.get? [component]).isSome = true := by
  cases diverges.1 <;> simp_all

theorem first_at_root {expected actual : Node} {reason : MismatchReason}
    (divergent : Divergent (some expected) (some actual))
    (reasoned : reason = .missingBlobFile ↔ BothUnloaded (some expected) (some actual)) :
    First expected actual { Mismatch.here expected actual with reason := reason } where
  diverges := (diverges_root_iff expected actual).mpr divergent
  expected_value := rfl
  actual_value := rfl
  reason := reasoned
  earliest := by
    rintro (_ | ⟨component, rest⟩) _
    · exact Or.inl rfl
    · exact Or.inr (.above expected component rest)

theorem first_here {expected actual : Node} (divergent : Divergent (some expected) (some actual))
    (loaded : ¬ BothUnloaded (some expected) (some actual)) :
    FirstDivergence expected actual (some (.here expected actual)) :=
  first_at_root divergent ⟨nofun, fun unloaded => absurd unloaded loaded⟩

theorem nothing_diverges {expected actual : Node} (apart : ¬ Lockstep expected actual)
    (agree : ¬ Divergent (some expected) (some actual)) : FirstDivergence expected actual none := by
  rintro (_ | ⟨component, rest⟩) diverges
  · exact agree ((diverges_root_iff expected actual).mp diverges)
  · exact apart (lockstep_of_below diverges)

structure FirstBelow (expected actual : Node) (component : Component) (mismatch : Mismatch) :
    Prop extends Reports expected actual mismatch where
  starts : ∃ rest, mismatch.location = component :: rest
  earliest : ∀ rest, Diverges expected actual (component :: rest) →
    component :: rest = mismatch.location ∨ Earlier expected mismatch.location (component :: rest)

theorem first_below_shared {expected actual e a : Node} {component : Component}
    {mismatch : Mismatch} (lockstep : Lockstep expected actual)
    (in_expected : expected.get? [component] = some e)
    (in_actual : actual.get? [component] = some a) (first : First e a mismatch) :
    FirstBelow expected actual component (mismatch.below component) where
  diverges := (diverges_shared_iff lockstep in_expected in_actual).mpr first.diverges
  starts := ⟨mismatch.location, rfl⟩
  expected_value := by
    rw [Mismatch.below, get_cons, in_expected]
    exact first.expected_value
  actual_value := by
    rw [Mismatch.below, get_cons, in_actual]
    exact first.actual_value
  reason := first.reason
  earliest := by
    intro rest diverges
    rw [diverges_shared_iff lockstep in_expected in_actual] at diverges
    rcases first.earliest rest diverges with rfl | later
    · exact Or.inl rfl
    · exact Or.inr (.within in_expected later)

theorem first_below_single {expected actual : Node} {component : Component}
    (lockstep : Lockstep expected actual)
    (single : (expected.get? [component]).isSome ≠ (actual.get? [component]).isSome) :
    FirstBelow expected actual component
      ⟨[component], expected.get? [component], actual.get? [component], .mismatchedProperty⟩ where
  diverges := (diverges_single_iff lockstep single).mpr rfl
  starts := ⟨[], rfl⟩
  expected_value := rfl
  actual_value := rfl
  reason := by
    constructor
    · intro missing
      contradiction
    · rintro ⟨e, a, in_expected, in_actual, -⟩
      dsimp only at in_expected in_actual
      simp [in_expected, in_actual] at single
  earliest := by
    intro rest diverges
    rw [(diverges_single_iff lockstep single).mp diverges]
    exact Or.inl rfl

end Comparison
end DocAudit
