import DocAudit.Proofs.KeyPath.Acceptance

/- What is written for a path of writable components reads as that path. The written form is one of
   the grammar's spellings of the path, item by item: an escaped character is an item of a name, the
   text of an integer is the body of an index. Reading then follows from the acceptance of the
   grammar, and every path that was read is of writable components. -/
namespace DocAudit
namespace KeyPath

theorem escaped_item (c : Char) : NameItem (Component.escaped c) c := by
  unfold Component.escaped
  split
  · exact .escaped c
  next ordinary =>
    simp only [Component.isSpecial, Component.escapeChar, Bool.or_eq_true, beq_iff_eq,
      not_or] at ordinary
    refine .plain c ?_
    simpa [and_assoc] using ordinary

theorem escaped_first_item (c : Char) :
    NameItem (Component.escapedFirst c) c ∧ (Component.escapedFirst c).head? ≠ some '$' := by
  unfold Component.escapedFirst
  split
  · exact ⟨.escaped c, by simp [Component.escapeChar]⟩
  next root =>
    refine ⟨escaped_item c, ?_⟩
    unfold Component.escaped
    split
    · simp [Component.escapeChar]
    · simpa [Component.rootChar] using root

theorem escaped_name_items (name : List Char) :
    NameItems (name.flatMap Component.escaped) name := by
  induction name with
  | nil => exact .nil
  | cons c rest ih => exact .cons (escaped_item c) ih

theorem escaped_name_spelling {name : String} (some_character : name ≠ "") :
    NameSpelling (name.toList.flatMap Component.escaped) name.toList :=
  (name_spelling_iff _ _).mpr
    ⟨escaped_name_items name.toList, by simpa using some_character⟩

theorem leading_name_spelling {name : List Char} (some_character : name ≠ []) :
    NameSpelling (Component.leadingName name) name ∧
      (Component.leadingName name).head? ≠ some '$' := by
  cases name with
  | nil => contradiction
  | cons c rest =>
    obtain ⟨item, no_root_mark⟩ := escaped_first_item c
    refine ⟨(name_spelling_iff _ _).mpr ⟨.cons item (escaped_name_items rest), by simp⟩, ?_⟩
    unfold Component.leadingName
    cases first : Component.escapedFirst c with
    | nil =>
      rw [first] at item
      cases item
    | cons d later => simpa [first] using no_root_mark

theorem decimal_digits (n : Nat) : Digits (Nat.toDigits 10 n) := by
  refine ⟨Nat.toDigits_ne_nil, fun c member => ?_⟩
  exact (is_digit_iff c).mp (Nat.isDigit_of_mem_toDigits (by decide) (by decide) member)

theorem decimal_digits_value (n : Nat) : digitsValue (Nat.toDigits 10 n) = n := by
  have read : Nat.ofDigitChars 10 (Nat.toDigits 10 n) 0 = n := Nat.ofDigitChars_ten_toDigits
  rw [Nat.ofDigitChars_eq_foldl] at read
  rw [← decimal_value_eq, decimalValue]
  simpa [Nat.mul_comm] using read

theorem index_text_body (i : Int) : IndexBody (Component.indexText i) i := by
  have magnitude := decimal_digits_value i.natAbs
  have digits := decimal_digits i.natAbs
  unfold Component.indexText
  split
  next negative =>
    have spelled := IndexBody.negative digits
    rw [magnitude] at spelled
    rwa [show -(i.natAbs : Int) = i by omega] at spelled
  next positive =>
    have spelled := IndexBody.unsigned digits
    rw [magnitude] at spelled
    rwa [show (i.natAbs : Int) = i by omega] at spelled

theorem index_text_spelling {i : Int} (fits : Word.IsSigned i) :
    IndexSpelling ('[' :: (Component.indexText i ++ [']'])) i :=
  (index_spelling_iff _ i).mpr ⟨_, rfl, index_text_body i, fits⟩

theorem component_spelling {c : Component} (writable : c.Writable) {t : List Char}
    {cs : KeyPath} (rest : DelimitedSpelling t cs) :
    DelimitedSpelling (c.chars ++ t) (c :: cs) := by
  cases c with
  | property name =>
    have spelled := DelimitedSpelling.property (escaped_name_spelling writable) rest
    rwa [String.ofList_toList] at spelled
  | index i => exact .index (index_text_spelling writable) rest

theorem components_spelling {cs : KeyPath} (writable : ∀ c ∈ cs, c.Writable) :
    DelimitedSpelling (cs.flatMap Component.chars) cs := by
  induction cs with
  | nil => exact .nil
  | cons c rest ih =>
    rw [List.forall_mem_cons] at writable
    exact component_spelling writable.1 (ih writable.2)

theorem chars_spelling {cs : KeyPath} (some_component : cs ≠ [])
    (writable : ∀ c ∈ cs, c.Writable) : Spelling (KeyPath.chars cs) cs := by
  cases cs with
  | nil => contradiction
  | cons first rest =>
    rw [List.forall_mem_cons] at writable
    obtain ⟨first_writable, rest_writable⟩ := writable
    have delimited := components_spelling rest_writable
    cases first with
    | property name =>
      have nonempty : name.toList ≠ [] := by simpa using (show name ≠ "" from first_writable)
      obtain ⟨spelled, no_root_mark⟩ := leading_name_spelling nonempty
      have spelling := Spelling.bare spelled no_root_mark delimited
      rwa [String.ofList_toList] at spelling
    | index i =>
      exact .delimited (.index (index_text_spelling first_writable) delimited) (by simp)

theorem parse_render {cs : KeyPath} (some_component : cs ≠ [])
    (writable : ∀ c ∈ cs, c.Writable) : parse cs.render = .ok cs := by
  apply parse_of_spelling
  rw [render, String.toList_ofList]
  exact chars_spelling some_component writable

theorem joined_chars (cs : KeyPath) :
    (String.join (cs.map Component.text)).toList = cs.flatMap Component.chars := by
  simp [String.toList_join, List.flatMap_map, Component.text]

theorem parse_rooted {cs : KeyPath} (some_component : cs ≠ [])
    (writable : ∀ c ∈ cs, c.Writable) :
    parse ("$" ++ String.join (cs.map Component.text)) = .ok cs := by
  apply parse_of_spelling
  rw [String.toList_append, joined_chars]
  exact .rooted (components_spelling writable) some_component

/-- Reading undoes writing, both for the usual form of a path and for its form after the root mark.
    So whatever text a path was read from, its written form reads as the same path, and different
    paths have different written forms. -/
theorem parse_undoes_render :
    (∀ components : KeyPath, components ≠ [] → (∀ c ∈ components, c.Writable) →
      parse components.render = .ok components ∧
        parse ("$" ++ String.join (components.map Component.text)) = .ok components) ∧
    (∀ written path, parse written = .ok path →
      parse path.render = .ok path ∧ (parse path.render).map render = .ok path.render) ∧
    (∀ written path other_written other, parse written = .ok path →
      parse other_written = .ok other → (path = other ↔ path.render = other.render)) := by
  have reread {written : String} {path : KeyPath} (parsed : parse written = .ok path) :
      parse path.render = .ok path := by
    obtain ⟨some_component, writable⟩ := parsed_writable parsed
    exact parse_render some_component writable
  refine ⟨?_, ?_, ?_⟩
  · intro components some_component writable
    exact ⟨parse_render some_component writable, parse_rooted some_component writable⟩
  · intro written path parsed
    rw [reread parsed]
    exact ⟨rfl, rfl⟩
  · intro written path other_written other parsed other_parsed
    refine ⟨fun same => by rw [same], fun same => ?_⟩
    have read := reread parsed
    rw [same, reread other_parsed] at read
    exact (Except.ok.inj read).symm

def markedNames : KeyPath :=
  [.property "$a.b", .index (-9223372036854775808), .property "$\\"]

theorem marked_names_read_back :
    markedNames ≠ [] ∧ (∀ c ∈ markedNames, c.Writable) ∧
    markedNames.render = "\\$a\\.b[-9223372036854775808].$\\\\" ∧
    parse "\\$a\\.b[-9223372036854775808].$\\\\" = .ok markedNames ∧
    parse "$.$a\\.b[-9223372036854775808].$\\\\" = .ok markedNames ∧
    parse "$.\\x[-007]" = .ok [.property "x", .index (-7)] ∧
    (parse "x[-7]").map render = .ok "x[-7]" ∧
    markedNames.render ≠ render [.property "x", .index (-7)] := by
  have some_component : markedNames ≠ [] := List.cons_ne_nil _ _
  have writable : ∀ c ∈ markedNames, c.Writable :=
    List.forall_mem_cons.mpr ⟨by simp [Component.Writable], List.forall_mem_cons.mpr
      ⟨by unfold Component.Writable; decide, List.forall_mem_singleton.mpr
        (by simp [Component.Writable])⟩⟩
  -- a spelling that is not the written form of its path
  have rewritten : parse "$.\\x[-007]" = .ok [.property "x", .index (-7)] := rfl
  obtain ⟨read, rooted⟩ := parse_undoes_render.1 _ some_component writable
  exact ⟨some_component, writable, rfl, read, rooted, rewritten,
    (parse_undoes_render.2.1 _ _ rewritten).2,
    mt (parse_undoes_render.2.2 _ _ _ _ read rewritten).mpr (by decide)⟩

end KeyPath
end DocAudit
