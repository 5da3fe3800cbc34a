import DocAudit.KeyPath.Grammar
import DocAudit.KeyPath.Parser

/- The scanner reads exactly the written paths of the grammar, and gives each its meaning. From the
   grammar to the scanner: a spelled part takes the scanner from one state to another, whatever
   follows it. From the scanner to the grammar: `Completes` says for every state what the unread
   characters must be for the run to end well, and each step keeps it. -/
namespace DocAudit
namespace KeyPath

theorem is_digit_iff (c : Char) : c.isDigit = true ↔ '0' ≤ c ∧ c ≤ '9' := by
  simp only [Char.isDigit, Bool.and_eq_true, decide_eq_true_eq, Char.le_def, ge_iff_le]

theorem decimal_fold (digits : List Char) (start : Nat) :
    digits.foldl (fun n c => n * 10 + (c.toNat - '0'.toNat)) start =
      start * Nat.pow 10 digits.length + digitsValue digits := by
  induction digits generalizing start with
  | nil => simp [digitsValue]
  | cons c rest ih =>
    rw [List.foldl_cons, ih]
    simp only [digitsValue, List.length_cons, Nat.pow_succ, Nat.pow_eq]
    rw [Nat.add_mul, Nat.mul_assoc, Nat.mul_comm 10, Nat.add_assoc]

theorem decimal_value_eq (digits : List Char) : decimalValue digits = digitsValue digits := by
  rw [decimalValue, decimal_fold, Nat.zero_mul, Nat.zero_add]

def Numeral : List Char → Prop
  | [] => True
  | c :: rest => (c = '-' ∨ c.isDigit = true) ∧ ∀ d ∈ rest, d.isDigit = true

inductive IndexBody : List Char → Int → Prop where
  | unsigned {s : List Char} (digits : Digits s) : IndexBody s (digitsValue s)
  | negative {s : List Char} (digits : Digits s) : IndexBody ('-' :: s) (-digitsValue s)

theorem index_spelling_iff (s : List Char) (i : Int) :
    IndexSpelling s i ↔
      ∃ body, s = '[' :: (body ++ [']']) ∧ IndexBody body i ∧ Word.IsSigned i := by
  constructor
  · intro spelled
    cases spelled with
    | unsigned digits fits => exact ⟨_, rfl, .unsigned digits, fits⟩
    | negative digits fits => exact ⟨_, rfl, .negative digits, fits⟩
  · rintro ⟨body, rfl, spelled, fits⟩
    cases spelled with
    | unsigned digits => exact .unsigned digits fits
    | negative digits => exact .negative digits fits

theorem digits_numeral {s : List Char} (digits : Digits s) : Numeral s := by
  obtain ⟨nonempty, all⟩ := digits
  cases s with
  | nil => contradiction
  | cons c rest =>
    refine ⟨Or.inr ((is_digit_iff c).mpr (all c (by simp))), ?_⟩
    intro d member
    exact (is_digit_iff d).mpr (all d (by simp [member]))

theorem body_numeral {body : List Char} {i : Int} (spelled : IndexBody body i) :
    Numeral body := by
  cases spelled with
  | unsigned digits => exact digits_numeral digits
  | negative digits =>
    exact ⟨Or.inl rfl, fun d member => (is_digit_iff d).mpr (digits.2 d member)⟩

theorem index_value_unsigned {c : Char} (unsigned : c ≠ '-') (rest : List Char) :
    indexValue? (c :: rest) =
      if Word.IsSigned (digitsValue (c :: rest)) then some (digitsValue (c :: rest) : Int)
      else none := by
  unfold indexValue?
  split
  next negative digits split =>
    split at split
    next sign => exact absurd (List.cons.inj sign).1 unsigned
    next =>
      cases split
      simp [decimal_value_eq]

theorem index_value_negative (digits : List Char) :
    indexValue? ('-' :: digits) =
      if digits ≠ [] ∧ Word.IsSigned (-digitsValue digits) then some (-digitsValue digits : Int)
      else none := by
  simp [indexValue?, decimal_value_eq]

theorem digit_unsigned {c : Char} (digit : '0' ≤ c ∧ c ≤ '9') : c ≠ '-' := by
  rintro rfl
  exact absurd digit (by decide)

theorem index_value_of_body {body : List Char} {i : Int} (spelled : IndexBody body i)
    (fits : Word.IsSigned i) : indexValue? body = some i := by
  cases spelled with
  | unsigned digits =>
    obtain ⟨nonempty, all⟩ := digits
    cases body with
    | nil => contradiction
    | cons c rest =>
      rw [index_value_unsigned (digit_unsigned (all c (by simp))), if_pos fits]
  | negative digits => rw [index_value_negative, if_pos ⟨digits.1, fits⟩]

theorem body_of_index_value {body : List Char} {i : Int} (numeral : Numeral body)
    (value : indexValue? body = some i) : IndexBody body i ∧ Word.IsSigned i := by
  cases body with
  | nil => simp [indexValue?] at value
  | cons c rest =>
    obtain ⟨first, all⟩ := numeral
    by_cases sign : c = '-'
    · subst sign
      rw [index_value_negative, Option.ite_none_right_eq_some, Option.some.injEq] at value
      obtain ⟨⟨nonempty, fits⟩, rfl⟩ := value
      exact ⟨.negative ⟨nonempty, fun d member => (is_digit_iff d).mp (all d member)⟩, fits⟩
    · have digits : Digits (c :: rest) := by
        refine ⟨by simp, fun d member => (is_digit_iff d).mp ?_⟩
        rcases List.mem_cons.mp member with rfl | later
        · exact first.resolve_left sign
        · exact all d later
      rw [index_value_unsigned sign, Option.ite_none_right_eq_some, Option.some.injEq] at value
      obtain ⟨fits, rfl⟩ := value
      exact ⟨.unsigned digits, fits⟩

inductive NameItems : List Char → List Char → Prop where
  | nil : NameItems [] []
  | cons {s t : List Char} {c : Char} {name : List Char} (item : NameItem s c)
      (rest : NameItems t name) : NameItems (s ++ t) (c :: name)

theorem name_spelling_iff (s name : List Char) :
    NameSpelling s name ↔ NameItems s name ∧ name ≠ [] := by
  constructor
  · intro spelled
    refine ⟨?_, by cases spelled <;> simp⟩
    induction spelled with
    | one item => simpa using NameItems.cons item .nil
    | more item rest ih => exact .cons item ih
  · rintro ⟨items, nonempty⟩
    induction items with
    | nil => contradiction
    | @cons s t c name item rest ih =>
      cases rest with
      | nil => simpa using NameSpelling.one item
      | cons next later => exact .more item (ih (by simp))

/-! From the grammar to the scanner. -/

theorem scan_name_item {s : List Char} {c : Char} (item : NameItem s c)
    (before unread : List Char) :
    scan (.name before) (s ++ unread) = scan (.name (c :: before)) unread := by
  cases item with
  | escaped => rw [List.cons_append, List.cons_append, List.nil_append, scan]
  | plain _ ordinary =>
    simp only [List.mem_cons, List.not_mem_nil, or_false, not_or] at ordinary
    obtain ⟨dot, opening, closing, escape⟩ := ordinary
    rw [List.cons_append, List.nil_append, scan] <;> simp_all

theorem scan_name_items {s name : List Char} (items : NameItems s name)
    (before unread : List Char) :
    scan (.name before) (s ++ unread) = scan (.name (name.reverse ++ before)) unread := by
  induction items generalizing before with
  | nil => rfl
  | cons item rest ih =>
    rw [List.append_assoc, scan_name_item item, ih]
    simp

theorem numeral_continues {before s : List Char} {c : Char}
    (numeral : Numeral (before.reverse ++ c :: s)) : continuesIndex before c = true := by
  cases reversed : before.reverse with
  | nil =>
    rw [List.reverse_eq_nil_iff] at reversed
    subst reversed
    rcases numeral.1 with sign | digit
    · simp [continuesIndex, sign]
    · simp [continuesIndex, digit]
  | cons first later =>
    rw [reversed] at numeral
    have digit := numeral.2 c (by simp)
    simp [continuesIndex, digit]

theorem continues_no_bracket {before : List Char} {c : Char}
    (continues : continuesIndex before c = true) : c ≠ ']' := by
  rintro rfl
  simp [continuesIndex] at continues

theorem scan_numeral {before s : List Char} (numeral : Numeral (before.reverse ++ s))
    (unread : List Char) :
    scan (.index before) (s ++ unread) = scan (.index (s.reverse ++ before)) unread := by
  induction s generalizing before with
  | nil => rfl
  | cons c rest ih =>
    have continues := numeral_continues numeral
    rw [List.cons_append, scan, if_pos continues, ih (by simpa using numeral)]
    · simp
    · exact continues_no_bracket continues

theorem scan_index {s : List Char} {i : Int} (spelled : IndexSpelling s i)
    (unread : List Char) :
    scan .boundary (s ++ unread) = andThen (.ok (.index i)) (scan .boundary unread) := by
  obtain ⟨body, rfl, body_spelled, fits⟩ := (index_spelling_iff s i).mp spelled
  have value := index_value_of_body body_spelled fits
  have numeral : Numeral (([] : List Char).reverse ++ body) := body_numeral body_spelled
  rw [List.cons_append, List.append_assoc, scan, scan_numeral numeral, List.append_nil,
    List.singleton_append, scan, closeIndex, List.reverse_reverse, value]

theorem delimited_start {s : List Char} {cs : KeyPath} (spelled : DelimitedSpelling s cs) :
    s = [] ∧ cs = [] ∨ opensComponent s = true ∧ cs ≠ [] := by
  cases spelled with
  | nil => exact Or.inl ⟨rfl, rfl⟩
  | property => exact Or.inr ⟨rfl, by simp⟩
  | index index_spelled =>
    obtain ⟨body, rfl, _⟩ := (index_spelling_iff _ _).mp index_spelled
    exact Or.inr ⟨rfl, by simp⟩

theorem scan_name_close {before unread : List Char} (some_character : before ≠ [])
    (opens : unread = [] ∨ opensComponent unread = true) :
    scan (.name before) unread =
      andThen (.ok (.property (String.ofList before.reverse))) (scan .boundary unread) := by
  have closed : closeName before unread = .ok (.property (String.ofList before.reverse)) := by
    simp [closeName, some_character]
  rcases opens with rfl | opens
  · rw [scan, scan, closed]
  · unfold opensComponent at opens
    split at opens
    · rw [scan, scan, closed]
    · rw [scan, scan, closed]
    · cases opens

theorem scan_name {s t name : List Char} {cs : KeyPath} (spelled : NameSpelling s name)
    (rest : DelimitedSpelling t cs) :
    scan (.name []) (s ++ t) =
      andThen (.ok (.property (String.ofList name))) (scan .boundary t) := by
  obtain ⟨items, nonempty⟩ := (name_spelling_iff s name).mp spelled
  rw [scan_name_items items, List.append_nil, scan_name_close (by simpa using nonempty),
    List.reverse_reverse]
  exact (delimited_start rest).imp And.left And.left

theorem scan_delimited {s : List Char} {cs : KeyPath} (spelled : DelimitedSpelling s cs) :
    scan .boundary s = .ok cs := by
  induction spelled with
  | nil => rw [scan]
  | property name_spelled rest ih => rw [scan, scan_name name_spelled rest, ih, andThen]
  | index index_spelled rest ih => rw [scan_index index_spelled, ih, andThen]

theorem item_start {s : List Char} {c : Char} (item : NameItem s c) :
    ∃ first rest, s = first :: rest ∧ first ≠ '.' ∧ first ≠ '[' := by
  cases item with
  | escaped => exact ⟨'\\', _, rfl, by decide, by decide⟩
  | plain _ ordinary =>
    simp only [List.mem_cons, not_or] at ordinary
    exact ⟨_, _, rfl, ordinary.1, ordinary.2.1⟩

theorem name_start {s name : List Char} (spelled : NameSpelling s name) :
    ∃ c rest, s = c :: rest ∧ c ≠ '.' ∧ c ≠ '[' := by
  cases spelled with
  | one item => exact item_start item
  | more item rest =>
    obtain ⟨c, later, rfl, dot, opening⟩ := item_start item
    exact ⟨c, _, rfl, dot, opening⟩

theorem opens_at_head (c : Char) (rest more : List Char) :
    opensComponent (c :: rest) = opensComponent (c :: more) := by
  unfold opensComponent
  split <;> simp_all

theorem scan_path_opening {s : List Char} (opens : opensComponent s = true) :
    scanPath s = scan .boundary s := by
  unfold opensComponent at opens
  split at opens
  · rfl
  · rfl
  · cases opens

theorem scan_path_rooted {s : List Char} (opens : opensComponent s = true) :
    scanPath ('$' :: s) = scan .boundary s := by
  rw [scanPath, if_pos opens]

theorem scan_path_bare {c : Char} {s : List Char} (no_root_mark : c ≠ '$')
    (closed : opensComponent (c :: s) = false) :
    scanPath (c :: s) = scan (.name []) (c :: s) := by
  rw [scanPath, closed, if_neg Bool.false_ne_true]
  · simp
  · exact fun _ same => no_root_mark (List.cons.inj same).1

theorem scan_path_of_spelling {s : List Char} {cs : KeyPath} (spelled : Spelling s cs) :
    scanPath s = .ok cs := by
  cases spelled with
  | delimited delimited some_component =>
    obtain ⟨opens, _⟩ := (delimited_start delimited).resolve_left (fun empty =>
      some_component empty.2)
    rw [scan_path_opening opens, scan_delimited delimited]
  | rooted delimited some_component =>
    obtain ⟨opens, _⟩ := (delimited_start delimited).resolve_left (fun empty =>
      some_component empty.2)
    rw [scan_path_rooted opens, scan_delimited delimited]
  | bare name_spelled no_root_mark rest =>
    have run := scan_name name_spelled rest
    obtain ⟨c, later, rfl, dot, opening⟩ := name_start name_spelled
    have root : c ≠ '$' := by simpa using no_root_mark
    have closed (unread : List Char) : opensComponent (c :: unread) = false := by
      simp [opensComponent, dot, opening]
    rw [List.cons_append] at run ⊢
    rw [scan_path_bare root (closed _), run, scan_delimited rest, andThen]

/-! From the scanner to the grammar. -/

/-- What unread characters mean to a scan in a state. -/
def Completes : Scan → List Char → KeyPath → Prop
  | .boundary, unread, cs => DelimitedSpelling unread cs
  | .name before, unread, cs =>
    ∃ s t name rest, unread = s ++ t ∧ NameItems s name ∧ before.reverse ++ name ≠ [] ∧
      DelimitedSpelling t rest ∧
      cs = .property (String.ofList (before.reverse ++ name)) :: rest
  | .index before, unread, cs =>
    ∃ s t i rest, unread = s ++ ']' :: t ∧
      IndexSpelling ('[' :: (before.reverse ++ s ++ [']'])) i ∧ DelimitedSpelling t rest ∧
      cs = .index i :: rest

def Begun : Scan → Prop
  | .index before => Numeral before.reverse
  | _ => True

theorem and_then_ok {component : Except Failure Component} {rest : Except Failure KeyPath}
    {cs : KeyPath} (both : andThen component rest = .ok cs) :
    ∃ c later, component = .ok c ∧ rest = .ok later ∧ cs = c :: later := by
  cases component <;> cases rest <;> simp_all [andThen]

theorem close_name_ok {before unread : List Char} {c : Component}
    (closed : closeName before unread = .ok c) :
    before ≠ [] ∧ c = .property (String.ofList before.reverse) := by
  simp only [closeName] at closed
  split at closed
  · cases closed
  next some_character =>
    cases closed
    exact ⟨some_character, rfl⟩

theorem close_index_ok {before unread : List Char} {c : Component}
    (numeral : Numeral before.reverse) (closed : closeIndex before unread = .ok c) :
    ∃ i, IndexSpelling ('[' :: (before.reverse ++ [']'])) i ∧ c = .index i := by
  simp only [closeIndex] at closed
  split at closed
  next i value =>
    cases closed
    obtain ⟨body, fits⟩ := body_of_index_value numeral value
    exact ⟨i, (index_spelling_iff _ i).mpr ⟨_, rfl, body, fits⟩, rfl⟩
  next => cases closed

theorem continues_numeral {before : List Char} {c : Char} (numeral : Numeral before.reverse)
    (continues : continuesIndex before c = true) : Numeral (c :: before).reverse := by
  rw [List.reverse_cons]
  cases reversed : before.reverse with
  | nil =>
    rw [List.reverse_eq_nil_iff] at reversed
    subst reversed
    simp only [continuesIndex, Bool.or_eq_true, Bool.and_eq_true, beq_iff_eq] at continues
    exact ⟨continues.symm.imp And.left id, by simp⟩
  | cons first later =>
    rw [reversed] at numeral
    have nonempty : before.isEmpty = false := by
      cases before with
      | nil => simp at reversed
      | cons => rfl
    simp only [continuesIndex, nonempty, Bool.and_false, Bool.or_false] at continues
    refine ⟨numeral.1, fun d member => ?_⟩
    rcases List.mem_append.mp member with old | new
    · exact numeral.2 d old
    · rw [List.mem_singleton.mp new]
      exact continues

theorem unread_item {c : Char} {rest : List Char} (dot : c ≠ '.') (opening : c ≠ '[')
    (closing : c ≠ ']') (last : c = '\\' → rest ≠ [])
    (escape : ∀ next later, c = '\\' → rest ≠ next :: later) : NameItem [c] c := by
  have plain : c ≠ '\\' := by
    intro same
    cases rest with
    | nil => exact last same rfl
    | cons next later => exact escape next later same rfl
  exact .plain c (by simp [dot, opening, closing, plain])

theorem name_item_completes {s : List Char} {c : Char} (item : NameItem s c)
    {before unread : List Char} {cs : KeyPath}
    (completes : Completes (.name (c :: before)) unread cs) :
    Completes (.name before) (s ++ unread) cs := by
  obtain ⟨t, u, name, rest, rfl, items, _, delimited, rfl⟩ := completes
  exact ⟨s ++ t, u, c :: name, rest, by simp, .cons item items, by simp, delimited, by simp⟩

theorem closed_name_completes {before unread : List Char} {cs : KeyPath}
    {rest : Except Failure KeyPath}
    (delimited : ∀ later, rest = .ok later → DelimitedSpelling unread later)
    (run : andThen (closeName before unread) rest = .ok cs) :
    Completes (.name before) unread cs := by
  obtain ⟨c, later, closed, continued, rfl⟩ := and_then_ok run
  obtain ⟨some_character, rfl⟩ := close_name_ok closed
  exact ⟨[], unread, [], later, rfl, .nil, by simpa using some_character,
    delimited later continued, by simp⟩

theorem opened_name_spells {unread : List Char} {cs : KeyPath}
    (completes : Completes (.name []) unread cs) : DelimitedSpelling ('.' :: unread) cs := by
  obtain ⟨s, t, name, rest, rfl, items, nonempty, delimited, rfl⟩ := completes
  exact .property ((name_spelling_iff s name).mpr ⟨items, nonempty⟩) delimited

theorem opened_index_spells {unread : List Char} {cs : KeyPath}
    (completes : Completes (.index []) unread cs) : DelimitedSpelling ('[' :: unread) cs := by
  obtain ⟨s, t, i, rest, rfl, spelled, delimited, rfl⟩ := completes
  simpa using DelimitedSpelling.index spelled delimited

theorem scan_completes (state : Scan) {unread : List Char} {cs : KeyPath} (begun : Begun state)
    (run : scan state unread = .ok cs) : Completes state unread cs := by
  -- the state keeps what was read of the open item, `Completes` what may still end it
  fun_induction scan state unread generalizing cs with
  | case1 =>
    cases run
    exact .nil
  | case2 rest ih => exact opened_name_spells (ih trivial run)
  | case3 rest ih => exact opened_index_spells (ih trivial run)
  | case4 => cases run
  | case5 before =>
    refine closed_name_completes (fun later same => ?_) run
    cases same
    exact .nil
  | case6 before rest ih =>
    exact closed_name_completes (fun later same => opened_name_spells (ih trivial same)) run
  | case7 before rest ih =>
    exact closed_name_completes (fun later same => opened_index_spells (ih trivial same)) run
  | case8 => cases run
  | case9 => cases run
  | case10 before c rest ih => exact name_item_completes (.escaped c) (ih trivial run)
  | case11 before c rest dot opening closing last escape ih =>
    exact name_item_completes (unread_item dot opening closing last escape) (ih trivial run)
  | case12 => cases run
  | case13 before rest ih =>
    obtain ⟨c, later, closed, continued, rfl⟩ := and_then_ok run
    obtain ⟨i, spelled, rfl⟩ := close_index_ok begun closed
    exact ⟨[], rest, i, later, rfl, by simpa using spelled, ih trivial continued, rfl⟩
  | case14 before c rest closing continues ih =>
    obtain ⟨s, t, i, later, rfl, spelled, delimited, rfl⟩ :=
      ih (continues_numeral begun continues) run
    exact ⟨c :: s, t, i, later, rfl, by simpa using spelled, delimited, rfl⟩
  | case15 => cases run

theorem opened_not_empty {s : List Char} {cs : KeyPath} (opens : opensComponent s = true)
    (delimited : DelimitedSpelling s cs) : cs ≠ [] := by
  rcases delimited_start delimited with ⟨rfl, _⟩ | ⟨_, some_component⟩
  · cases opens
  · exact some_component

theorem spelling_of_scan_path {s : List Char} {cs : KeyPath} (run : scanPath s = .ok cs) :
    Spelling s cs := by
  unfold scanPath at run
  split at run
  · cases run
  · split at run
    next opens =>
      have delimited := scan_completes .boundary trivial run
      exact .rooted delimited (opened_not_empty opens delimited)
    next => cases run
  next nonempty no_root =>
    split at run
    next opens =>
      have delimited := scan_completes .boundary trivial run
      exact .delimited delimited (opened_not_empty opens delimited)
    next =>
      obtain ⟨t, u, name, rest, rfl, items, some_character, delimited, rfl⟩ :=
        scan_completes (.name []) trivial run
      have spelled := (name_spelling_iff t name).mpr ⟨items, some_character⟩
      refine .bare spelled ?_ delimited
      obtain ⟨c, later, rfl, _⟩ := name_start spelled
      simp only [List.head?_cons, ne_eq, Option.some.injEq]
      rintro rfl
      exact no_root _ rfl

theorem spelled_name_not_empty {s name : List Char} (spelled : NameSpelling s name) :
    String.ofList name ≠ "" := by
  obtain ⟨_, some_character⟩ := (name_spelling_iff s name).mp spelled
  intro empty
  exact some_character (by simpa using congrArg String.toList empty)

theorem delimited_writable {s : List Char} {cs : KeyPath} (spelled : DelimitedSpelling s cs) :
    ∀ c ∈ cs, c.Writable := by
  induction spelled with
  | nil => simp
  | property name_spelled rest ih =>
    rw [List.forall_mem_cons]
    exact ⟨spelled_name_not_empty name_spelled, ih⟩
  | index index_spelled rest ih =>
    obtain ⟨_, _, _, fits⟩ := (index_spelling_iff _ _).mp index_spelled
    rw [List.forall_mem_cons]
    exact ⟨fits, ih⟩

theorem spelled_writable {s : List Char} {cs : KeyPath} (spelled : Spelling s cs) :
    cs ≠ [] ∧ ∀ c ∈ cs, c.Writable := by
  cases spelled with
  | delimited delimited some_component =>
    exact ⟨some_component, delimited_writable delimited⟩
  | rooted delimited some_component => exact ⟨some_component, delimited_writable delimited⟩
  | bare name_spelled no_root_mark rest =>
    rw [List.forall_mem_cons]
    exact ⟨by simp, spelled_name_not_empty name_spelled, delimited_writable rest⟩

theorem parse_ok_iff (written : String) (cs : KeyPath) :
    parse written = .ok cs ↔ scanPath written.toList = .ok cs := by
  unfold parse
  cases scanPath written.toList <;> simp

theorem parse_of_spelling {written : String} {cs : KeyPath}
    (spelled : Spelling written.toList cs) : parse written = .ok cs :=
  (parse_ok_iff written cs).mpr (scan_path_of_spelling spelled)

theorem spelling_of_parse {written : String} {cs : KeyPath} (parsed : parse written = .ok cs) :
    Spelling written.toList cs :=
  spelling_of_scan_path ((parse_ok_iff written cs).mp parsed)

theorem parsed_writable {written : String} {cs : KeyPath} (parsed : parse written = .ok cs) :
    cs ≠ [] ∧ ∀ c ∈ cs, c.Writable :=
  spelled_writable (spelling_of_parse parsed)

/-- A text is accepted with the components that the grammar gives it, and with no others. What is
    accepted has a component, and none of its names is empty. -/
theorem parse_accepts_grammar (written : String) (cs : KeyPath) :
    (parse written = .ok cs ↔ Spelling written.toList cs) ∧
      (parse written = .ok cs → cs ≠ [] ∧ .property "" ∉ cs) := by
  refine ⟨⟨spelling_of_parse, parse_of_spelling⟩, fun parsed => ?_⟩
  obtain ⟨some_component, writable⟩ := parsed_writable parsed
  exact ⟨some_component, fun member => writable _ member rfl⟩

theorem dotted_name_and_signed_index :
    Spelling "$.\\.[-0]".toList [.property ".", .index 0] ∧
    Component.property "" ∉ ([.property ".", .index 0] : KeyPath) ∧
    ∀ cs, ¬ Spelling "a[+1]".toList cs := by
  have parsed : parse "$.\\.[-0]" = .ok [.property ".", .index 0] := rfl
  have refused : parse "a[+1]" = .error ⟨"a[+1]", 2, .invalidIndex "+"⟩ := rfl
  obtain ⟨spelled_iff, named⟩ := parse_accepts_grammar "$.\\.[-0]" [.property ".", .index 0]
  refine ⟨spelled_iff.mp parsed, (named parsed).2, fun cs spelled => ?_⟩
  rw [← (parse_accepts_grammar _ cs).1, refused] at spelled
  cases spelled

end KeyPath
end DocAudit
