import DocAudit.Proofs.ExactComparison
import DocAudit.Proofs.KeyPath.WrittenApart

/- Two locations of one tree are never written alike, whatever its keys are. A location starts with
   a component that steps into the kind of container which the root is, be it a location with a
   value or one that a comparison reports and that only the other tree has. So any two of them start
   with components of one sort, and such paths are written apart. -/
namespace DocAudit
namespace Comparison
open Node

/-- Where a tree has a value, or where its comparison with another tree found a mismatch. -/
inductive LocationOf (tree : Node) : KeyPath → Prop where
  | found {location : KeyPath} {value : Node} (found : tree.get? location = some value) :
      LocationOf tree location
  | expected {other : Node} {mismatch : Mismatch} (ordered : other.Ordered)
      (reported : compare tree other = some mismatch) : LocationOf tree mismatch.location
  | actual {other : Node} {mismatch : Mismatch} (ordered : other.Ordered)
      (reported : compare other tree = some mismatch) : LocationOf tree mismatch.location

def StartsIn (tree : Node) (location : KeyPath) : Prop :=
  ∀ first ∈ location.head?, tree.kind = first.container

variable {expected actual tree : Node} {location other : KeyPath}

theorem found_starts {value : Node} (found : tree.get? location = some value) :
    StartsIn tree location := by
  intro first at_start
  obtain ⟨rest, rfl⟩ := List.head?_eq_some_iff.mp at_start
  rw [get_cons] at found
  obtain ⟨child, here, -⟩ := Option.bind_eq_some_iff.mp found
  exact fits_of_child here

theorem lockstep_kinds (lockstep : Lockstep expected actual) : expected.kind = actual.kind := by
  cases lockstep <;> rfl

theorem visited_starts (visited : Visited expected actual location) :
    StartsIn expected location ∧ StartsIn actual location := by
  have both {component : Component} {rest : KeyPath} (lockstep : Lockstep expected actual)
      (fits : expected.kind = component.container) :
      StartsIn expected (component :: rest) ∧ StartsIn actual (component :: rest) := by
    constructor
    · rintro first ⟨⟩
      exact fits
    · rintro first ⟨⟩
      rw [← lockstep_kinds lockstep]
      exact fits
  cases visited with
  | root => exact ⟨nofun, nofun⟩
  | shared lockstep in_expected => exact both lockstep (fits_of_child in_expected)
  | only_expected lockstep in_expected => exact both lockstep (fits_of_child in_expected)
  | only_actual lockstep _ in_actual =>
    exact both lockstep ((lockstep_kinds lockstep).trans (fits_of_child in_actual))

theorem reported_visited {mismatch : Mismatch} (ordered : expected.Ordered)
    (actual_ordered : actual.Ordered) (reported : compare expected actual = some mismatch) :
    Visited expected actual mismatch.location := by
  have first := compare_first expected actual ordered actual_ordered
  rw [reported] at first
  exact first.diverges.1

theorem location_starts (ordered : tree.Ordered) (at_location : LocationOf tree location) :
    StartsIn tree location := by
  cases at_location with
  | found found => exact found_starts found
  | expected other_ordered reported =>
    exact (visited_starts (reported_visited ordered other_ordered reported)).1
  | actual other_ordered reported =>
    exact (visited_starts (reported_visited other_ordered ordered reported)).2

theorem start_alike (starts : StartsIn tree location) (other_starts : StartsIn tree other) :
    location.StartAlike other := by
  intro first at_start other_first at_other_start
  have containers := (starts first at_start).symm.trans (other_starts other_first at_other_start)
  cases first <;> cases other_first <;> first | rfl | cases containers

/-- Different paths that start with components of one sort are written differently, empty keys and
    all indices included. So are any two locations of one tree, those at which a comparison of the
    tree reports a mismatch among them; and the root mark is reported for the root only. -/
theorem locations_written_apart :
    (∀ path other : KeyPath, path.StartAlike other → path ≠ other →
      path.render ≠ other.render) ∧
    (∀ (tree : Node) (location other : KeyPath), tree.Ordered → LocationOf tree location →
      LocationOf tree other → location ≠ other → location.render ≠ other.render) ∧
    ∀ mismatch : Mismatch, mismatch.path = "$" ↔ mismatch.location = [] := by
  have apart {path other : KeyPath} (alike : path.StartAlike other) (differ : path ≠ other) :
      path.render ≠ other.render := mt (KeyPath.render_unique alike) differ
  refine ⟨fun path other => apart, ?_, fun mismatch => KeyPath.render_root_iff mismatch.location⟩
  intro tree location other ordered at_location at_other
  exact apart (start_alike (location_starts ordered at_location)
    (location_starts ordered at_other))

theorem apart_among_empty_keys :
    LocationOf (dictionary [("", dictionary [("", null)])]) [.property "", .property ""] ∧
    LocationOf (dictionary [("", dictionary [("", null)])]) [.property "", .property "."] ∧
    KeyPath.render [.property "", .property ""] ≠ KeyPath.render [.property "", .property "."] ∧
    KeyPath.render [.property "", .property ""] ≠ KeyPath.render [.property ""] := by
  have ordered : (dictionary [("", dictionary [("", null)])]).Ordered := by
    simp [Ordered, OrderedEntries, Entries.Ascending]
  have other_ordered : (dictionary [("", dictionary [("", null), (".", null)])]).Ordered := by
    simp [Ordered, OrderedEntries, Entries.Ascending]
    decide
  have inner : LocationOf (dictionary [("", dictionary [("", null)])])
      [.property "", .property ""] := .found rfl
  have reported : compare (dictionary [("", dictionary [("", null)])])
      (dictionary [("", dictionary [("", null), (".", null)])]) =
    some ⟨[.property "", .property "."], none, some null, .mismatchedProperty⟩ := rfl
  have extra : LocationOf (dictionary [("", dictionary [("", null)])])
      [.property "", .property "."] := .expected other_ordered reported
  refine ⟨inner, extra, ?_, ?_⟩
  · exact locations_written_apart.2.1 _ _ _ ordered inner extra (by decide)
  · exact locations_written_apart.1 _ _ (by rintro _ ⟨⟩ _ ⟨⟩; rfl) (by decide)

end Comparison
end DocAudit
