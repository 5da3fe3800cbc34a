import DocAudit.Proofs.Edit.Atomicity
import DocAudit.Proofs.Edit.Invariance
import DocAudit.Proofs.Edit.Refusal

/- Arrays do not grow beyond a million elements, however many edits are made. The only growth is
   that of a write that reaches beyond the end of an array, and it is bounded by the checks of the
   indices, which come first. To say so a write is taken apart further than into its steps: into
   single acts, such as the check of an index, the filling of an array or the creation of a
   container. A path gives them in their order, and to perform them until one is refused is to
   write. -/
namespace DocAudit
namespace Node

def SizeBounded : Node → Prop
  | .array items => items.length ≤ 1000000
  | _ => True

theorem size_bounded_kept : KeptByEdits SizeBounded fun _ => True where
  created := by
    intro path
    rcases path with _ | ⟨_ | _, _⟩ <;> simp [emptyFor, SizeBounded]
  with_child := by
    intro node component child checked _ bounded
    cases node <;> cases component <;> try exact bounded
    case array.index items i =>
      have within := (check_index_iff_bounds i).mp (checked i rfl)
      simp only [withChild, SizeBounded, set_element_length] at bounded ⊢
      omega
  without_child := by
    intro node component bounded
    cases node <;> cases component <;> try exact bounded
    case array.index items i =>
      have shorter := (items.eraseIdx_sublist i.toNat).length_le
      exact Nat.le_trans shorter bounded

end Node

namespace WriteWalk
open Node

/-- What a write does at once. To fill and to create are conditional: only an array that does not
    have the index is filled, and a container is put only where a child is missing or a null
    element. An element put next to the end of an array is added to it. -/
inductive Act where
  | measure (length : Nat)
  | check (i : Int)
  | expect (component : Component)
  | fill (i : Int) (length : Nat)
  | create (component : Component) (container : Node)
  | enter (component : Component)
  | put (component : Component) (value : Node)
  | replace (value : Node)

namespace Act

def isCheck : Act → Bool
  | .measure _ => true
  | .check _ => true
  | _ => false

def size? : Act → Option Nat
  | .check i => if 0 ≤ i then some (i.toNat + 1) else none
  | .fill _ length => some length
  | .put (.index i) _ => some (i.toNat + 1)
  | _ => none

end Act

def perform : Cursor → Act → Except EditFault Cursor
  | cursor, .measure length =>
    match Limit.checkPathLength length with
    | .ok () => .ok cursor
    | .error error => .error (.limit error)
  | cursor, .check i =>
    match checkIndex i with
    | .ok () => .ok cursor
    | .error fault => .error fault
  | cursor, .expect component =>
    if cursor.current.kind = component.container then .ok cursor
    else .error (.typeMismatch component.container cursor.current.kind)
  | ⟨above, .array items⟩, .fill i length =>
    .ok ⟨above, .array (if i.toNat < items.length then items else filledTo items length)⟩
  | ⟨above, .dictionary entries⟩, .create (.property key) container =>
    .ok ⟨above, .dictionary (if (Entries.find? key entries).isSome then entries
      else Entries.insert key container entries)⟩
  | ⟨above, .array items⟩, .create (.index i) container =>
    .ok ⟨above, .array (if (items.getD i.toNat .null).isNull then items.set i.toNat container
      else items)⟩
  | ⟨above, .dictionary entries⟩, .enter (.property key) =>
    .ok ⟨.entry entries key :: above, (Entries.find? key entries).getD .null⟩
  | ⟨above, .array items⟩, .enter (.index i) =>
    .ok ⟨.element items i.toNat :: above, items.getD i.toNat .null⟩
  | ⟨above, .dictionary entries⟩, .put (.property key) value =>
    .ok ⟨above, .dictionary (Entries.insert key value entries)⟩
  | ⟨above, .array items⟩, .put (.index i) value =>
    .ok ⟨above, .array (if i.toNat < items.length then items.set i.toNat value
      else items ++ [value])⟩
  | ⟨above, _⟩, .replace value => .ok ⟨above, value⟩
  | cursor, _ => .ok cursor

def checks (path : KeyPath) : List Act :=
  path.filterMap fun
    | .index i => some (.check i)
    | .property _ => none

def room : Component → Nat → List Act
  | .property _, _ => []
  | .index i, more => [.check i, .fill i (i.toNat + more)]

def descendActs (component : Component) (rest : KeyPath) : List Act :=
  .expect component :: (room component 1 ++ [.create component (emptyFor rest), .enter component])

def putActs (component : Component) (value : Node) : List Act :=
  .expect component :: (room component 0 ++ [.put component value])

def actsAlong (value : Node) : KeyPath → List Act
  | [] => [.replace value]
  | [component] => putActs component value
  | component :: next :: rest =>
    descendActs component (next :: rest) ++ actsAlong value (next :: rest)

def acts (path : KeyPath) (value : Node) : List Act :=
  .measure path.length :: (checks path ++ actsAlong value path)

structure Run where
  done : List Act
  cursor : Cursor
  outcome : Except EditFault Unit

def run : Cursor → List Act → Run
  | cursor, [] => ⟨[], cursor, .ok ()⟩
  | cursor, act :: rest =>
    match perform cursor act with
    | .error fault => ⟨[], cursor, .error fault⟩
    | .ok next =>
      let later := run next rest
      ⟨act :: later.done, later.cursor, later.outcome⟩

def writing (root : Node) (path : KeyPath) (value : Node) : Run :=
  run ⟨[], root⟩ (acts path value)

def Run.result (run : Run) : Node × Except EditFault Unit := (run.cursor.tree, run.outcome)

/-! To perform the acts is to write. -/

section acts
variable {cursor next : Cursor} {first rest : List Act}

theorem run_past (reached : first.foldlM perform cursor = .ok next) :
    (run cursor (first ++ rest)).result = (run next rest).result := by
  induction first generalizing cursor with
  | nil =>
    cases reached
    rfl
  | cons act first ih =>
    rw [List.foldlM_cons] at reached
    cases performed : perform cursor act with
    | error fault =>
      rw [performed] at reached
      cases reached
    | ok middle =>
      rw [performed] at reached
      simp only [List.cons_append, run, performed]
      exact ih reached

theorem run_all (reached : first.foldlM perform cursor = .ok next) :
    (run cursor first).result = (next.tree, .ok ()) := by
  have past : (run cursor (first ++ [])).result = (run next []).result := run_past reached
  rw [List.append_nil] at past
  exact past

end acts

theorem run_checks (cursor : Cursor) (path : KeyPath) (rest : List Act) :
    (run cursor (checks path ++ rest)).result =
      match checkIndices path with
      | .ok () => (run cursor rest).result
      | .error fault => (cursor.tree, .error fault) := by
  induction path with
  | nil => rfl
  | cons component path ih =>
    cases component with
    | property key => exact ih
    | index i =>
      simp only [checks, List.filterMap_cons, List.cons_append, run, perform, checkIndices]
      cases checkIndex i with
      | error fault => rfl
      | ok passed => exact ih

theorem element_for_eq (items : List Node) (i : Nat) (rest : KeyPath) :
    elementFor items i rest =
      if ((items[i]?).getD .null).isNull then emptyFor rest else (items[i]?).getD .null := by
  unfold elementFor
  cases items[i]? <;> rfl

section step
variable {cursor next : Cursor} {act : Act} {first rest : List Act}

theorem performed_cons (performed : perform cursor act = .ok next) :
    (act :: rest).foldlM perform cursor = rest.foldlM perform next := by
  rw [List.foldlM_cons, performed]
  rfl

theorem performed_append (reached : first.foldlM perform cursor = .ok next) :
    (first ++ rest).foldlM perform cursor = rest.foldlM perform next := by
  rw [List.foldlM_append, reached]
  rfl

variable {node : Node} {component : Component}

theorem expect_fits (above : List Frame) (fits : node.kind = component.container) :
    perform ⟨above, node⟩ (.expect component) = .ok ⟨above, node⟩ := if_pos fits

theorem room_performed (above : List Frame) (items : List Node) {i : Int}
    (checked : checkIndex i = .ok ()) {more : Nat} (at_most_one : more ≤ 1) :
    (room (.index i) more).foldlM perform ⟨above, .array items⟩ =
      .ok ⟨above, .array (filledTo items (i.toNat + more))⟩ := by
  have passed : perform ⟨above, .array items⟩ (.check i) = .ok ⟨above, .array items⟩ := by
    simp only [perform, checked]
  rw [room, performed_cons passed]
  by_cases inside : i.toNat < items.length
  · have nothing : i.toNat + more - items.length = 0 := by omega
    simp [perform, inside, filledTo, nothing]
  · simp [perform, inside]

theorem entry_entered (above : List Frame) (entries : List (String × Node)) (key : String)
    (container : Node) :
    [Act.create (.property key) container, .enter (.property key)].foldlM perform
        ⟨above, .dictionary entries⟩ =
      let created := if (Entries.find? key entries).isSome then entries
        else Entries.insert key container entries
      .ok ⟨.entry created key :: above, (Entries.find? key created).getD .null⟩ := rfl

theorem element_entered (above : List Frame) (items : List Node) (i : Int) (container : Node) :
    [Act.create (.index i) container, .enter (.index i)].foldlM perform ⟨above, .array items⟩ =
      let created := if (items.getD i.toNat .null).isNull then items.set i.toNat container
        else items
      .ok ⟨.element created i.toNat :: above, created.getD i.toNat .null⟩ := rfl

theorem descent_performed (above : List Frame) (fits : node.kind = component.container)
    (checked : IndexChecked component) (rest : KeyPath) :
    ∃ frame, (descendActs component rest).foldlM perform ⟨above, node⟩ =
        .ok ⟨frame :: above, node.childFor component rest⟩ ∧
      ∀ child, frame.close child = node.withChild component child := by
  rw [descendActs, performed_cons (expect_fits above fits)]
  rcases container_cases fits with ⟨entries, key, rfl, rfl⟩ | ⟨items, i, rfl, rfl⟩
  · rw [room, List.nil_append, entry_entered, childFor, entryFor]
    cases found : Entries.find? key entries with
    | some child => exact ⟨.entry entries key, by simp [found], fun child => rfl⟩
    | none =>
      -- The frame has the created container in it, in whose place the child is put back.
      refine ⟨.entry (Entries.insert key (emptyFor rest) entries) key, ?_, fun child => ?_⟩
      · simp [Entries.find_insert]
      · simp only [Frame.close, withChild, Entries.insert_insert]
  · have inside : i.toNat < (filledTo items (i.toNat + 1)).length := by
      rw [filled_to_length]
      omega
    rw [performed_append (room_performed above items (checked i rfl) (Nat.le_refl _)),
      element_entered, filled_item, childFor, element_for_eq]
    split
    next null =>
      refine ⟨.element ((filledTo items (i.toNat + 1)).set i.toNat (emptyFor rest)) i.toNat, ?_,
        fun child => ?_⟩
      · simp [inside]
      · simp only [Frame.close, withChild, List.set_set, set_element_eq]
    next taken =>
      refine ⟨.element (filledTo items (i.toNat + 1)) i.toNat, ?_, fun child => ?_⟩
      · simp only [filled_item]
      · simp only [Frame.close, withChild, set_element_eq]

theorem put_performed (above : List Frame) (fits : node.kind = component.container)
    (checked : IndexChecked component) (value : Node) :
    (putActs component value).foldlM perform ⟨above, node⟩ =
      .ok ⟨above, node.withChild component value⟩ := by
  rw [putActs, performed_cons (expect_fits above fits)]
  rcases container_cases fits with ⟨entries, key, rfl, rfl⟩ | ⟨items, i, rfl, rfl⟩
  · rfl
  · rw [performed_append (room_performed above items (checked i rfl) (Nat.zero_le _)), Nat.add_zero]
    by_cases inside : i.toNat < items.length
    · have nothing : i.toNat - items.length = 0 := by omega
      simp [perform, withChild, setElement, filledTo, nothing, inside]
    · simp [perform, withChild, setElement, filledTo, inside, Nat.le_of_not_lt inside]

theorem expect_unfit (above : List Frame) (unfit : node.kind ≠ component.container) :
    (run ⟨above, node⟩ (.expect component :: rest)).result =
      (Cursor.tree ⟨above, node⟩, .error (.typeMismatch component.container node.kind)) := by
  rw [run, perform, if_neg unfit]
  rfl

end step

theorem run_along (value : Node) (above : List Frame) (node : Node) (component : Component)
    (rest : KeyPath) (checked : ∀ other ∈ component :: rest, IndexChecked other) :
    (run ⟨above, node⟩ (actsAlong value (component :: rest))).result =
      (Cursor.tree ⟨above, (place node (component :: rest) value).1⟩,
        (place node (component :: rest) value).2) := by
  induction rest generalizing above node component with
  | nil =>
    by_cases fits : node.kind = component.container
    · have here := checked component List.mem_cons_self
      rw [actsAlong, run_all (put_performed above fits here value), place_fits fits, place]
    · rw [actsAlong, putActs, expect_unfit above fits, place_unfit fits]
  | cons next rest ih =>
    obtain ⟨here, later⟩ := List.forall_mem_cons.mp checked
    by_cases fits : node.kind = component.container
    · obtain ⟨frame, descended, closed⟩ := descent_performed above fits here (next :: rest)
      rw [actsAlong, run_past descended, ih _ _ _ later, tree_closed, closed, place_fits fits]
    · rw [actsAlong, descendActs, List.cons_append, expect_unfit above fits, place_unfit fits]

theorem run_result (root : Node) (path : KeyPath) (value : Node) :
    (writing root path value).result =
      match checkPath path with
      | .error fault => (root, .error fault)
      | .ok () => place root path value := by
  simp only [writing, acts, run, perform, checkPath]
  cases Limit.checkPathLength path.length with
  | error error => rfl
  | ok short =>
    have along := run_checks ⟨[], root⟩ path (actsAlong value path)
    refine Eq.trans along ?_
    cases passed : checkIndices path with
    | error fault => rfl
    | ok done =>
      have checked : ∀ component ∈ path, IndexChecked component := by
        rintro component member i rfl
        exact (check_indices_ok_iff path).mp passed i member
      cases path with
      | nil =>
        rw [place]
        rfl
      | cons component rest => exact run_along value [] root component rest checked

theorem run_writes (root : Node) (path : KeyPath) (value : Node) :
    root.write path value =
      ((writing root path value).cursor.tree,
        outcomeAt path (writing root path value).outcome) := by
  have result := run_result root path value
  unfold write
  cases passed : checkPath path with
  | error fault =>
    rw [passed] at result
    obtain ⟨tree, outcome⟩ := Prod.mk.inj result
    rw [tree, outcome]
    rfl
  | ok done =>
    rw [passed] at result
    simp only [← result]
    rfl

/-! What was performed before an act, and how far it reaches. -/

theorem done_initial (cursor : Cursor) (acts : List Act) : (run cursor acts).done <+: acts := by
  induction acts generalizing cursor with
  | nil => exact List.prefix_rfl
  | cons act rest ih =>
    unfold run
    cases perform cursor act with
    | error fault => exact List.nil_prefix
    | ok next => exact List.prefix_cons_iff.mpr (.inr ⟨_, rfl, ih next⟩)

theorem done_checked {cursor : Cursor} {acts : List Act} {i : Int}
    (done : .check i ∈ (run cursor acts).done) : checkIndex i = .ok () := by
  induction acts generalizing cursor with
  | nil => cases done
  | cons act rest ih =>
    unfold run at done
    cases performed : perform cursor act with
    | error fault =>
      rw [performed] at done
      cases done
    | ok next =>
      rw [performed] at done
      rcases List.mem_cons.mp done with rfl | later
      · simp only [perform] at performed
        cases checked : checkIndex i with
        | ok passed => rfl
        | error fault => simp [checked] at performed
      · exact ih later

theorem checks_iff {path : KeyPath} {act : Act} :
    act ∈ checks path ↔ ∃ i, act = .check i ∧ .index i ∈ path := by
  unfold checks
  rw [List.mem_filterMap]
  constructor
  · rintro ⟨component, member, check⟩
    cases component with
    | property key => cases check
    | index i =>
      cases check
      exact ⟨i, rfl, member⟩
  · rintro ⟨i, rfl, member⟩
    exact ⟨.index i, member, rfl⟩

theorem checks_in_front {checking changing before after : List Act} {act : Act}
    (only : ∀ check ∈ checking, check.isCheck = true)
    (performed : before ++ act :: after <+: checking ++ changing) (other : act.isCheck = false) :
    checking <+: before := by
  induction checking generalizing before with
  | nil => exact List.nil_prefix
  | cons check checking ih =>
    obtain ⟨here, later⟩ := List.forall_mem_cons.mp only
    cases before with
    | nil =>
      obtain ⟨rfl, -⟩ := List.cons_prefix_cons.mp performed
      rw [here] at other
      cases other
    | cons first before =>
      obtain ⟨rfl, further⟩ := List.cons_prefix_cons.mp performed
      exact List.cons_prefix_cons.mpr ⟨rfl, ih later further⟩

section write
variable {root value : Node} {path : KeyPath}

theorem checks_only : ∀ check ∈ Act.measure path.length :: checks path, check.isCheck = true := by
  rw [List.forall_mem_cons]
  refine ⟨rfl, fun act member => ?_⟩
  obtain ⟨i, rfl, -⟩ := checks_iff.mp member
  rfl

theorem checked_before {before after : List Act} {act : Act}
    (split : (writing root path value).done = before ++ act :: after)
    (other : act.isCheck = false) {i : Int} (member : .index i ∈ path) :
    .check i ∈ before ∧ 0 ≤ i ∧ i ≤ 999999 := by
  have performed : (writing root path value).done <+: acts path value := done_initial _ _
  rw [split] at performed
  have front : Act.measure path.length :: checks path <+: before :=
    checks_in_front checks_only performed other
  have earlier : .check i ∈ before :=
    front.subset (List.mem_cons_of_mem _ (checks_iff.mpr ⟨i, rfl, member⟩))
  have done : .check i ∈ (writing root path value).done := by
    rw [split]
    exact List.mem_append_left _ earlier
  exact ⟨earlier, (check_index_iff_bounds i).mp (done_checked done)⟩

end write

def Act.Within (bound : Nat) (act : Act) : Prop := ∀ n ∈ act.size?, n ≤ bound

def Reaches (bound : Nat) (path : KeyPath) : Prop :=
  ∀ i, Component.index i ∈ path → i.toNat + 1 ≤ bound

section within
variable {bound : Nat} {component : Component}

theorem unsized_within {act : Act} (unsized : act.size? = none) : act.Within bound := by
  intro n size
  rw [unsized] at size
  cases size

theorem check_within {i : Int} (reach : i.toNat + 1 ≤ bound) : (Act.check i).Within bound := by
  intro n size
  simp only [Act.size?, Option.mem_def, Option.ite_none_right_eq_some, Option.some.injEq] at size
  omega

theorem room_within (reach : Reaches bound [component]) {more : Nat} (at_most_one : more ≤ 1) :
    ∀ act ∈ room component more, act.Within bound := by
  cases component with
  | property key => simp [room]
  | index i =>
    have element := reach i List.mem_cons_self
    rw [room, List.forall_mem_cons, List.forall_mem_singleton]
    refine ⟨check_within element, ?_⟩
    rintro n ⟨⟩
    omega

theorem put_within (reach : Reaches bound [component]) (value : Node) :
    (Act.put component value).Within bound := by
  cases component with
  | property key => exact unsized_within rfl
  | index i =>
    rintro n ⟨⟩
    exact reach i List.mem_cons_self

variable {path : KeyPath}

theorem reaches_cons : Reaches bound (component :: path) ↔
    Reaches bound [component] ∧ Reaches bound path := by
  simp only [Reaches, List.mem_cons, List.not_mem_nil, or_false, or_imp, forall_and]

theorem along_within (reach : Reaches bound path) (value : Node) :
    ∀ act ∈ actsAlong value path, act.Within bound := by
  fun_induction actsAlong value path with
  | case1 =>
    rw [List.forall_mem_singleton]
    exact unsized_within rfl
  | case2 component =>
    rw [putActs, List.forall_mem_cons, List.forall_mem_append, List.forall_mem_singleton]
    exact ⟨unsized_within rfl, room_within reach (Nat.zero_le 1), put_within reach value⟩
  | case3 component next rest ih =>
    obtain ⟨here, later⟩ := reaches_cons.mp reach
    rw [List.forall_mem_append, descendActs, List.forall_mem_cons, List.forall_mem_append,
      List.forall_mem_cons, List.forall_mem_singleton]
    refine ⟨⟨unsized_within rfl, room_within here (Nat.le_refl 1), ?_, ?_⟩, ih later⟩
    · exact unsized_within rfl
    · exact unsized_within rfl

theorem acts_within (reach : Reaches bound path) (value : Node) :
    ∀ act ∈ acts path value, act.Within bound := by
  rw [acts, List.forall_mem_cons, List.forall_mem_append]
  refine ⟨unsized_within rfl, fun act member => ?_, along_within reach value⟩
  obtain ⟨i, rfl, index⟩ := checks_iff.mp member
  exact check_within (reach i index)

end within

theorem performed_within {root value : Node} {path : KeyPath} {act : Act}
    (done : act ∈ (writing root path value).done) : act.Within 1000000 := by
  cases check : act.isCheck with
  | false =>
    -- All indices of the path have passed before it, also those of the acts that come later.
    obtain ⟨before, after, split⟩ := List.append_of_mem done
    have reach : Reaches 1000000 path := by
      intro i member
      have within := (checked_before split check member).2
      omega
    exact acts_within reach value act ((done_initial _ _).subset done)
  | true =>
    cases act with
    | check i =>
      have within := (check_index_iff_bounds i).mp (done_checked done)
      exact check_within (by omega)
    | measure => exact unsized_within rfl
    | _ => cases check

theorem signed_reach {path : KeyPath} (signed : ∀ i, .index i ∈ path → Word.IsSigned i) :
    Reaches Word.greatestUnsigned path := by
  intro i member
  have range := signed i member
  simp only [Word.IsSigned, Word.greatestSigned, Word.greatestUnsigned] at range ⊢
  omega

theorem size_with_index_exact {i : Int} (range : Word.IsSigned i) :
    Limit.sizeWithIndex i.toNat = i.toNat + 1 := by
  simp only [Word.IsSigned, Word.greatestSigned] at range
  simp only [Limit.sizeWithIndex, Word.greatestUnsigned]
  omega

/-- If no array of a tree has more than a million elements, then none has after any number of edits
    whose values are no larger. What a write does, apart from checks, comes after a check of every
    index of the path. The sizes that the acts compute, performed or not, are words, and the size
    that an index is checked by is not saturated. -/
theorem growth_stays_bounded {start : Node} {edits : List Edit}
    (bounded : start.Everywhere SizeBounded)
    (values_bounded : ∀ path value, .write path value ∈ edits → value.Everywhere SizeBounded) :
    (∀ tree ∈ Edit.trees start edits, tree.Everywhere SizeBounded) ∧
    ∀ root path value,
      root.write path value = ((writing root path value).cursor.tree,
        outcomeAt path (writing root path value).outcome) ∧
      (∀ before act after, (writing root path value).done = before ++ act :: after →
        act.isCheck = false → ∀ i, .index i ∈ path → .check i ∈ before ∧ 0 ≤ i ∧ i ≤ 999999) ∧
      (∀ act ∈ (writing root path value).done, ∀ n ∈ act.size?, n ≤ 1000000) ∧
      ((∀ i, .index i ∈ path → Word.IsSigned i) →
        (∀ act ∈ acts path value, ∀ n ∈ act.size?, n ≤ Word.greatestUnsigned) ∧
        ∀ i, .index i ∈ path → Limit.sizeWithIndex i.toNat = i.toNat + 1) := by
  refine ⟨edits_everywhere size_bounded_kept (fun edit member => ?_) bounded,
    fun root path value => ⟨run_writes root path value, ?_, ?_, ?_⟩⟩
  · cases edit with
    | write path value => exact ⟨values_bounded path value member, fun _ _ => trivial⟩
    | remove path => trivial
  · exact fun before act after split other i member => checked_before split other member
  · exact fun act done => performed_within done
  · intro signed
    refine ⟨acts_within (signed_reach signed) value, fun i member => ?_⟩
    exact size_with_index_exact (signed i member)

theorem bounded_at_greatest_index :
    (∀ tree ∈ Edit.trees (.array []) [.write [.index 999999] .null, .write [.index 1000000] .null],
      tree.Everywhere SizeBounded) ∧
    (writing (.array []) [.index 999999] .null).done =
      [.measure 1, .check 999999] ++ .expect (.index 999999) ::
        [.check 999999, .fill 999999 999999, .put (.index 999999) .null] ∧
    Act.check 999999 ∈ [Act.measure 1, .check 999999] ∧
    (writing (.array []) [.index 1000000] .null).done = [.measure 1] := by
  have values_bounded (path : KeyPath) (value : Node) (member : Edit.write path value ∈
      [Edit.write [.index 999999] .null, .write [.index 1000000] .null]) :
      value.Everywhere SizeBounded := by
    simp only [List.mem_cons, Edit.write.injEq, List.not_mem_nil, or_false] at member
    rcases member with ⟨-, rfl⟩ | ⟨-, rfl⟩ <;> trivial
  have filled : (writing (.array []) [.index 999999] .null).done =
      [.measure 1, .check 999999] ++ .expect (.index 999999) ::
        [.check 999999, .fill 999999 999999, .put (.index 999999) .null] := rfl
  obtain ⟨bounded, written⟩ :=
    @growth_stays_bounded (.array []) _ ⟨Nat.zero_le _, trivial⟩ values_bounded
  have checked := (written _ _ _).2.1 _ _ _ filled rfl 999999 List.mem_cons_self
  exact ⟨bounded, filled, checked.1, rfl⟩

example : (writing (.dictionary []) [.property "a", .index 2] .null).done =
    [.measure 2, .check 2, .expect (.property "a"), .create (.property "a") (.array []),
      .enter (.property "a"), .expect (.index 2), .check 2, .fill 2 2, .put (.index 2) .null] := by
  rfl

end WriteWalk
end DocAudit
