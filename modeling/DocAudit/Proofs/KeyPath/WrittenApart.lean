import DocAudit.Proofs.KeyPath.RoundTrip

/- Different paths are written differently, as far as they start with components of one sort. Among
   them are paths with empty keys, which the grammar cannot spell, so that reading the text again
   does not tell them apart. Instead two texts are taken apart from the left: an item of a name is
   never the beginning of another one, a name ends where a component opens and nowhere else, and an
   index at the first closing bracket. Without its dot an empty key at the start leaves no trace,
   and the text after it is that of a path which starts with the next component. -/
namespace DocAudit
namespace KeyPath

def StartAlike (path other : KeyPath) : Prop :=
  ∀ first ∈ path.head?, ∀ other_first ∈ other.head?, first.SameSort other_first

def Opens (text : List Char) : Prop := text = [] ∨ opensComponent text = true

section text
variable {s t u v : List Char}

theorem item_closed {c : Char} (item : NameItem s c) (rest : List Char) : ¬ Opens (s ++ rest) := by
  obtain ⟨first, later, rfl, dot, opening⟩ := item_start item
  rintro (nothing | opens)
  · simp at nothing
  · simp [opensComponent, dot, opening] at opens

theorem item_unique {c d : Char} (item : NameItem s c) (other : NameItem t d)
    (same : s ++ u = t ++ v) : c = d ∧ u = v := by
  cases item with
  | escaped =>
    cases other with
    | escaped => simpa using same
    | plain _ ordinary =>
      obtain ⟨rfl, -⟩ := List.cons.inj same
      simp at ordinary
  | plain _ ordinary =>
    cases other with
    | escaped =>
      obtain ⟨rfl, -⟩ := List.cons.inj same
      simp at ordinary
    | plain => simpa using same

theorem items_unique {name other_name : List Char} (items : NameItems s name)
    (other : NameItems t other_name) (ends : Opens u) (other_ends : Opens v)
    (same : s ++ u = t ++ v) : name = other_name ∧ u = v := by
  induction items generalizing t other_name with
  | nil =>
    cases other with
    | nil => exact ⟨rfl, same⟩
    | cons item rest =>
      rw [List.nil_append, List.append_assoc] at same
      exact absurd (same ▸ ends) (item_closed item _)
  | cons item rest ih =>
    cases other with
    | nil =>
      rw [List.nil_append, List.append_assoc] at same
      exact absurd (same ▸ other_ends) (item_closed item _)
    | cons other_item other_rest =>
      rw [List.append_assoc, List.append_assoc] at same
      obtain ⟨rfl, later⟩ := item_unique item other_item same
      obtain ⟨rfl, unread⟩ := ih other_rest later
      exact ⟨rfl, unread⟩

theorem first_mark_unique {mark : Char} (free : mark ∉ s) (other_free : mark ∉ t)
    (same : s ++ mark :: u = t ++ mark :: v) : s = t ∧ u = v := by
  induction s generalizing t with
  | nil =>
    cases t with
    | nil => exact ⟨rfl, (List.cons.inj same).2⟩
    | cons d t =>
      obtain ⟨rfl, -⟩ := List.cons.inj same
      exact absurd List.mem_cons_self other_free
  | cons c s ih =>
    cases t with
    | nil =>
      obtain ⟨rfl, -⟩ := List.cons.inj same
      exact absurd List.mem_cons_self free
    | cons d t =>
      obtain ⟨rfl, later⟩ := List.cons.inj same
      obtain ⟨rfl, unread⟩ := ih (mt (List.mem_cons_of_mem c) free)
        (mt (List.mem_cons_of_mem c) other_free) later
      exact ⟨rfl, unread⟩

end text

theorem body_value_unique {body : List Char} {i j : Int} (spelled : IndexBody body i)
    (other : IndexBody body j) : i = j := by
  cases spelled with
  | unsigned digits =>
    cases other with
    | unsigned => rfl
    | negative =>
      have sign := digits.2 '-' List.mem_cons_self
      exact absurd rfl (digit_unsigned sign)
  | negative =>
    cases other with
    | unsigned digits =>
      have sign := digits.2 '-' List.mem_cons_self
      exact absurd rfl (digit_unsigned sign)
    | negative => rfl

theorem no_bracket_in_body {body : List Char} {i : Int} (spelled : IndexBody body i) :
    ']' ∉ body := by
  intro member
  have numeral := body_numeral spelled
  cases body with
  | nil => cases member
  | cons c rest =>
    rcases List.mem_cons.mp member with rfl | later
    · exact absurd numeral.1 (by decide)
    · exact absurd (numeral.2 ']' later) (by decide)

theorem index_unique {i j : Int} {u v : List Char}
    (same : Component.indexText i ++ ']' :: u = Component.indexText j ++ ']' :: v) :
    i = j ∧ u = v := by
  have body := index_text_body i
  have other_body := index_text_body j
  obtain ⟨texts, unread⟩ :=
    first_mark_unique (no_bracket_in_body body) (no_bracket_in_body other_body) same
  rw [← texts] at other_body
  exact ⟨body_value_unique body other_body, unread⟩

theorem components_open (path : KeyPath) : Opens (path.flatMap Component.chars) := by
  cases path with
  | nil => exact .inl rfl
  | cons component rest => cases component <;> exact .inr rfl

theorem component_unique {c d : Component} {u v : List Char} (ends : Opens u)
    (other_ends : Opens v) (same : c.chars ++ u = d.chars ++ v) : c = d ∧ u = v := by
  cases c with
  | property name =>
    cases d with
    | index j => simp [Component.chars] at same
    | property other_name =>
      obtain ⟨-, later⟩ := List.cons.inj same
      obtain ⟨names, unread⟩ := items_unique (escaped_name_items name.toList)
        (escaped_name_items other_name.toList) ends other_ends later
      exact ⟨congrArg Component.property (String.toList_inj.mp names), unread⟩
  | index i =>
    cases d with
    | property name => simp [Component.chars] at same
    | index j =>
      simp only [Component.chars, List.cons_append, List.append_assoc, List.nil_append,
        List.cons.injEq, true_and] at same
      obtain ⟨rfl, unread⟩ := index_unique same
      exact ⟨rfl, unread⟩

theorem components_unique {path other : KeyPath}
    (same : path.flatMap Component.chars = other.flatMap Component.chars) : path = other := by
  induction path generalizing other with
  | nil =>
    cases other with
    | nil => rfl
    | cons component rest => cases component <;> simp [Component.chars] at same
  | cons component rest ih =>
    cases other with
    | nil => cases component <;> simp [Component.chars] at same
    | cons other_component other_rest =>
      obtain ⟨rfl, later⟩ :=
        component_unique (components_open rest) (components_open other_rest) same
      rw [ih later]

theorem leading_name_items (name : List Char) : NameItems (Component.leadingName name) name := by
  cases name with
  | nil => exact .nil
  | cons c rest => exact .cons (escaped_first_item c).1 (escaped_name_items rest)

theorem leading_unique {c d : Component} {u v : List Char} (alike : c.SameSort d)
    (ends : Opens u) (other_ends : Opens v) (same : c.leadingChars ++ u = d.leadingChars ++ v) :
    c = d ∧ u = v := by
  cases c with
  | property name =>
    cases d with
    | index j => cases alike
    | property other_name =>
      obtain ⟨names, unread⟩ := items_unique (leading_name_items name.toList)
        (leading_name_items other_name.toList) ends other_ends same
      exact ⟨congrArg Component.property (String.toList_inj.mp names), unread⟩
  | index i =>
    cases d with
    | property name => cases alike
    | index j => exact component_unique ends other_ends same

theorem no_root_mark_at_start (first : Component) (rest : KeyPath) :
    (chars (first :: rest)).head? ≠ some '$' := by
  cases first with
  | index i => simp [chars, Component.leadingChars]
  | property name =>
    by_cases empty : name.toList = []
    · cases rest with
      | nil => simp [chars, Component.leadingChars, Component.leadingName, empty]
      | cons next later =>
        cases next <;>
          simp [chars, Component.leadingChars, Component.leadingName, empty, Component.chars]
    · obtain ⟨spelled, no_root_mark⟩ := leading_name_spelling empty
      obtain ⟨c, later, written, -⟩ := name_start spelled
      rw [written] at no_root_mark
      simpa [chars, Component.leadingChars, written] using no_root_mark

theorem render_root_iff (path : KeyPath) : path.render = "$" ↔ path = [] := by
  constructor
  · intro root
    cases path with
    | nil => rfl
    | cons first rest =>
      have written : chars (first :: rest) = ['$'] := by
        simpa [render] using congrArg String.toList root
      exact absurd (by rw [written]; rfl) (no_root_mark_at_start first rest)
  · rintro rfl
    rfl

theorem render_unique {path other : KeyPath} (alike : path.StartAlike other)
    (same : path.render = other.render) : path = other := by
  cases path with
  | nil => exact ((render_root_iff other).mp same.symm).symm
  | cons first rest =>
    cases other with
    | nil => exact (render_root_iff _).mp same
    | cons other_first other_rest =>
      have written : chars (first :: rest) = chars (other_first :: other_rest) := by
        simpa [render] using congrArg String.toList same
      obtain ⟨rfl, later⟩ := leading_unique (alike first rfl other_first rfl)
        (components_open rest) (components_open other_rest) written
      rw [components_unique later]

example : render [.property "", .index 0] = render [.index 0] := by decide

end KeyPath
end DocAudit
