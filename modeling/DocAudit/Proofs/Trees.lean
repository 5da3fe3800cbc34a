import DocAudit.Node.Edit
import Mathlib.Data.List.Sort

/- Trees seen through their children: the values one component below a node. A location leads
   through one child after the other, an ordered tree has ordered children, and what follows for
   every node from its children holds for every tree. -/
namespace DocAudit
namespace Entries
variable {κ α : Type} [DecidableEq κ]

theorem mem_of_find {key : κ} {value : α} {entries : List (κ × α)}
    (found : find? key entries = some value) : (key, value) ∈ entries := by
  induction entries with
  | nil => simp [find?] at found
  | cons entry rest ih =>
    obtain ⟨k, v⟩ := entry
    simp only [find?] at found
    split at found
    next same => simp_all
    next differ => exact List.mem_cons_of_mem _ (ih found)

theorem find_none_iff {key : κ} {entries : List (κ × α)} :
    find? key entries = none ↔ key ∉ keys entries := by
  rw [mem_keys_iff, contains, Option.not_isSome_iff_eq_none]

theorem erase_absent {key : κ} {entries : List (κ × α)} (absent : find? key entries = none) :
    erase key entries = entries := by
  refine List.filter_eq_self.mpr fun entry member => ?_
  simp only [decide_eq_true_eq]
  rintro rfl
  exact find_none_iff.mp absent (List.mem_map_of_mem member)

theorem erase_cons (key k : κ) (v : α) (rest : List (κ × α)) :
    erase key ((k, v) :: rest) =
      if k = key then erase key rest else (k, v) :: erase key rest := by
  by_cases same : k = key <;> simp [erase, same]

theorem find_of_mem [Ord κ] [Std.ReflOrd κ] {entries : List (κ × α)}
    (ascending : Ascending entries) {entry : κ × α} (member : entry ∈ entries) :
    find? entry.1 entries = some entry.2 := by
  induction entries with
  | nil => simp at member
  | cons head rest ih =>
    obtain ⟨above, tail⟩ := List.pairwise_cons.mp ascending
    rcases List.mem_cons.mp member with rfl | later
    · simp [find?]
    · have differ : entry.1 ≠ head.1 := by
        intro same
        have order := above entry later
        rw [same, Std.ReflOrd.compare_self] at order
        contradiction
      simp only [find?, differ, ↓reduceIte]
      exact ih tail later

theorem ascending_ext [Ord κ] [Std.TransOrd κ] {as bs : List (κ × α)} (ascending : Ascending as)
    (other_ascending : Ascending bs) (same : ∀ key, find? key as = find? key bs) : as = bs := by
  have irreflexive : Std.Irrefl fun a b : κ × α => compare a.1 b.1 = .lt :=
    ⟨fun a before => by simp [Std.ReflOrd.compare_self] at before⟩
  have antisymmetric : Std.Antisymm fun a b : κ × α => compare a.1 b.1 = .lt := by
    refine ⟨fun a b before after => ?_⟩
    rw [Std.OrientedCmp.gt_of_lt before] at after
    cases after
  refine List.Pairwise.eq_of_mem_iff ascending other_ascending fun entry => ?_
  constructor
  · intro member
    have found := find_of_mem ascending member
    rw [same] at found
    exact mem_of_find found
  · intro member
    have found := find_of_mem other_ascending member
    rw [← same] at found
    exact mem_of_find found

end Entries

namespace Node

theorem get_cons (node : Node) (component : Component) (rest : KeyPath) :
    node.get? (component :: rest) = (node.get? [component]).bind fun child => child.get? rest := by
  cases node <;> cases component <;> simp only [get?, Option.bind_none]
  case dictionary.property entries key => cases Entries.find? key entries <;> rfl
  case array.index items i =>
    split
    · cases items[i.toNat]? <;> rfl
    · rfl

theorem get_append (node : Node) (path rest : KeyPath) :
    node.get? (path ++ rest) = (node.get? path).bind fun child => child.get? rest := by
  induction path generalizing node with
  | nil => rfl
  | cons component path ih =>
    rw [List.cons_append, get_cons, get_cons node component path, Option.bind_assoc]
    simp only [ih]

@[simp] theorem get_member (entries : List (String × Node)) (key : String) :
    (dictionary entries).get? [.property key] = Entries.find? key entries := by
  simp only [get?]
  cases Entries.find? key entries <;> rfl

@[simp] theorem get_element (items : List Node) (i : Nat) :
    (array items).get? [.index i] = items[i]? := by
  simp only [get?, Int.natCast_nonneg, ↓reduceIte, Int.toNat_natCast]
  cases items[i]? <;> rfl

theorem child_cases {node child : Node} {component : Component}
    (found : node.get? [component] = some child) :
    (∃ entries key, node = .dictionary entries ∧ component = .property key ∧
      Entries.find? key entries = some child) ∨
    ∃ items, ∃ i : Nat, node = .array items ∧ component = .index i ∧ items[i]? = some child := by
  cases node <;> cases component <;> try simp [get?] at found
  case dictionary.property entries key =>
    left
    exact ⟨entries, key, rfl, rfl, by simpa using found⟩
  case array.index items i =>
    right
    obtain ⟨nonnegative, element⟩ := found
    have cast : i = (i.toNat : Int) := (Int.toNat_of_nonneg nonnegative).symm
    exact ⟨items, i.toNat, rfl, by rw [← cast], by simpa using element⟩

theorem fits_of_child {node child : Node} {component : Component}
    (found : node.get? [component] = some child) : node.kind = component.container := by
  rcases child_cases found with ⟨_, _, rfl, rfl, -⟩ | ⟨_, _, rfl, rfl, -⟩ <;> rfl

mutual

def Everywhere (holds : Node → Prop) : Node → Prop
  | .dictionary entries => holds (.dictionary entries) ∧ EverywhereEntries holds entries
  | .array items => holds (.array items) ∧ EverywhereItems holds items
  | leaf => holds leaf

def EverywhereItems (holds : Node → Prop) : List Node → Prop
  | [] => True
  | item :: rest => Everywhere holds item ∧ EverywhereItems holds rest

def EverywhereEntries (holds : Node → Prop) : List (String × Node) → Prop
  | [] => True
  | (_, value) :: rest => Everywhere holds value ∧ EverywhereEntries holds rest

end

section everywhere
variable {holds : Node → Prop}

theorem everywhere_items_iff (items : List Node) :
    EverywhereItems holds items ↔ ∀ item ∈ items, item.Everywhere holds := by
  induction items with
  | nil => simp [EverywhereItems]
  | cons item rest ih => simp [EverywhereItems, ih]

theorem everywhere_entries_iff (entries : List (String × Node)) :
    EverywhereEntries holds entries ↔ ∀ entry ∈ entries, entry.2.Everywhere holds := by
  induction entries with
  | nil => simp [EverywhereEntries]
  | cons entry rest ih =>
    obtain ⟨key, value⟩ := entry
    simp [EverywhereEntries, ih]

theorem everywhere_dictionary_iff (entries : List (String × Node)) :
    (dictionary entries).Everywhere holds ↔
      holds (.dictionary entries) ∧ ∀ entry ∈ entries, entry.2.Everywhere holds := by
  rw [Everywhere, everywhere_entries_iff]

theorem everywhere_array_iff (items : List Node) :
    (array items).Everywhere holds ↔
      holds (.array items) ∧ ∀ item ∈ items, item.Everywhere holds := by
  rw [Everywhere, everywhere_items_iff]

theorem holds_here {node : Node} (everywhere : node.Everywhere holds) : holds node := by
  cases node <;> first | exact everywhere | exact everywhere.1

theorem everywhere_child {node child : Node} {component : Component}
    (everywhere : node.Everywhere holds) (found : node.get? [component] = some child) :
    child.Everywhere holds := by
  rcases child_cases found with ⟨entries, key, rfl, -, entry⟩ | ⟨items, i, rfl, -, item⟩
  · rw [everywhere_dictionary_iff] at everywhere
    exact everywhere.2 _ (Entries.mem_of_find entry)
  · rw [everywhere_array_iff] at everywhere
    exact everywhere.2 _ (List.mem_of_getElem? item)

theorem everywhere_at {node value : Node} {location : KeyPath}
    (everywhere : node.Everywhere holds) (found : node.get? location = some value) :
    value.Everywhere holds := by
  induction location generalizing node with
  | nil =>
    cases found
    exact everywhere
  | cons component rest ih =>
    rw [get_cons] at found
    obtain ⟨child, first, later⟩ := Option.bind_eq_some_iff.mp found
    exact ih (everywhere_child everywhere first) later

theorem everywhere_iff_children {node : Node}
    (ascending : ∀ entries, node = .dictionary entries → Entries.Ascending entries) :
    node.Everywhere holds ↔ holds node ∧
      ∀ component child, node.get? [component] = some child → child.Everywhere holds := by
  constructor
  · intro everywhere
    exact ⟨holds_here everywhere, fun _ _ found => everywhere_child everywhere found⟩
  · intro parts
    obtain ⟨here, children⟩ := parts
    cases node <;> try exact here
    case dictionary entries =>
      rw [everywhere_dictionary_iff]
      refine ⟨here, fun entry member => children (.property entry.1) entry.2 ?_⟩
      rw [get_member, Entries.find_of_mem (ascending entries rfl) member]
    case array items =>
      rw [everywhere_array_iff]
      refine ⟨here, fun item member => ?_⟩
      obtain ⟨i, found⟩ := List.mem_iff_getElem?.mp member
      exact children (.index i) item (by rw [get_element, found])

end everywhere

def KeysAscend : Node → Prop
  | .dictionary entries => Entries.Ascending entries
  | _ => True

def HasContent : Node → Prop
  | .blob b => b.content ≠ none
  | _ => True

mutual

theorem ordered_iff_everywhere : ∀ node : Node, node.Ordered ↔ node.Everywhere KeysAscend
  | .dictionary entries => and_congr_right fun _ => ordered_entries_iff entries
  | .array items => by
    simp only [Ordered, Everywhere, KeysAscend, true_and, ordered_items_iff items]
  | .null | .boolean _ | .number _ | .string _ | .blob _ => Iff.rfl

theorem ordered_items_iff : ∀ items, OrderedItems items ↔ EverywhereItems KeysAscend items
  | [] => Iff.rfl
  | item :: rest => and_congr (ordered_iff_everywhere item) (ordered_items_iff rest)

theorem ordered_entries_iff : ∀ entries,
    OrderedEntries entries ↔ EverywhereEntries KeysAscend entries
  | [] => Iff.rfl
  | (_, value) :: rest => and_congr (ordered_iff_everywhere value) (ordered_entries_iff rest)

end

mutual

theorem loaded_iff_everywhere : ∀ node : Node, node.Loaded ↔ node.Everywhere HasContent
  | .dictionary entries => by
    simp only [Loaded, Everywhere, HasContent, true_and, loaded_entries_iff entries]
  | .array items => by
    simp only [Loaded, Everywhere, HasContent, true_and, loaded_items_iff items]
  | .null | .boolean _ | .number _ | .string _ | .blob _ => Iff.rfl

theorem loaded_items_iff : ∀ items, LoadedItems items ↔ EverywhereItems HasContent items
  | [] => Iff.rfl
  | item :: rest => and_congr (loaded_iff_everywhere item) (loaded_items_iff rest)

theorem loaded_entries_iff : ∀ entries,
    LoadedEntries entries ↔ EverywhereEntries HasContent entries
  | [] => Iff.rfl
  | (_, value) :: rest => and_congr (loaded_iff_everywhere value) (loaded_entries_iff rest)

end

theorem ordered_child {node child : Node} {component : Component} (ordered : node.Ordered)
    (found : node.get? [component] = some child) : child.Ordered := by
  rw [ordered_iff_everywhere] at ordered ⊢
  exact everywhere_child ordered found

theorem ordered_at {node value : Node} {location : KeyPath} (ordered : node.Ordered)
    (found : node.get? location = some value) : value.Ordered := by
  rw [ordered_iff_everywhere] at ordered ⊢
  exact everywhere_at ordered found

theorem ordered_keys {node : Node} (ordered : node.Ordered) (entries : List (String × Node))
    (dictionary : node = .dictionary entries) : Entries.Ascending entries := by
  subst dictionary
  exact ordered.1

theorem loaded_child {node child : Node} {component : Component} (loaded : node.Loaded)
    (found : node.get? [component] = some child) : child.Loaded := by
  rw [loaded_iff_everywhere] at loaded ⊢
  exact everywhere_child loaded found

theorem child_smaller {node child : Node} {component : Component}
    (found : node.get? [component] = some child) : sizeOf child < sizeOf node := by
  rcases child_cases found with ⟨entries, key, rfl, -, entry⟩ | ⟨items, i, rfl, -, item⟩
  · have member := List.sizeOf_lt_of_mem (Entries.mem_of_find entry)
    simp only [Prod.mk.sizeOf_spec, dictionary.sizeOf_spec] at member ⊢
    omega
  · have member := List.sizeOf_lt_of_mem (List.mem_of_getElem? item)
    simp only [array.sizeOf_spec]
    omega

theorem child_induction {motive : Node → Prop}
    (step : ∀ node, (∀ component child, node.get? [component] = some child → motive child) →
      motive node) (node : Node) : motive node := by
  induction size : sizeOf node using Nat.strongRecOn generalizing node with
  | ind n ih =>
    refine step node fun component child found => ?_
    have smaller : sizeOf child < n := by
      rw [← size]
      exact child_smaller found
    exact ih (sizeOf child) smaller child rfl

end Node
end DocAudit
