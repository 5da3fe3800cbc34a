import DocAudit.Proofs.Edit.Agreement

/- What the last component of a removal does to the container it stands on: a key is gone, or an
   element is, and the later elements move down by one. `formerly` says where the value now found
   below a component was before. -/
namespace DocAudit

/-- Where the value found below a component was before the removal, if there can be one. -/
def Component.formerly : Component → Component → Option Component
  | .property key, .property k => if k = key then none else some (.property k)
  | .index i, .index j => some (.index (if j < i then j else j + 1))
  | _, component => some component

namespace Node

def withoutChild : Node → Component → Node
  | .dictionary entries, .property key => .dictionary (Entries.erase key entries)
  | .array items, .index i => .array (items.eraseIdx i.toNat)
  | node, _ => node

section step
variable {node : Node} {component : Component}

theorem withdraw_last_tree (fits : node.kind = component.container) :
    (withdraw node [component]).1 = node.withoutChild component := by
  rcases container_cases fits with ⟨entries, key, rfl, rfl⟩ | ⟨items, i, rfl, rfl⟩ <;> rfl

theorem get_without_child (fits : node.kind = component.container)
    (nonnegative : component.NonNegative) (other : Component) (rest : KeyPath) :
    (node.withoutChild component).get? (other :: rest) =
      (component.formerly other).bind fun origin => node.get? (origin :: rest) := by
  rcases counted_cases fits nonnegative with ⟨entries, key, rfl, rfl⟩ | ⟨items, n, rfl, rfl⟩
  · cases other with
    | index j => rfl
    | property k =>
      simp only [withoutChild, get?, Entries.find_erase, Component.formerly]
      split <;> rfl
  · cases other with
    | property k => rfl
    | index j =>
      simp only [withoutChild, get?, Component.formerly, Int.toNat_natCast, List.getElem?_eraseIdx,
        Option.bind_some]
      -- an index below zero leads nowhere, before the removal and after it
      by_cases before : j < n
      · have first : j.toNat < n ∨ j < 0 := by omega
        rcases first with first | negative
        · simp only [before, first, ↓reduceIte]
        · have below : ¬ 0 ≤ j := by omega
          simp only [before, below, ↓reduceIte]
      · have counted : 0 ≤ j := by omega
        have next : 0 ≤ j + 1 := by omega
        have later : ¬ j.toNat < n := by omega
        have moved : (j + 1).toNat = j.toNat + 1 := by omega
        simp only [before, counted, next, later, moved, ↓reduceIte]

end step
end Node
end DocAudit
