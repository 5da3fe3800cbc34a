import DocAudit.Proofs.KeyPath.WrittenApart

/- Where a path is refused. What was read up to the reported place can still become a path, and the
   character that the fault names stands at the place. The scanner counts the unread characters, so
   the runs are followed from their ends: a fault splits the text in a part that was read and the
   rest, and a step before it lengthens the part in front. A fault in an index may point back to the
   opening bracket, which is why a scan of an index is taken together with the bracket and the
   digits that it has read. One kind of fault comes too late: the digits of an index are compared
   with the range of words only at their end, and at an unexpected character not at all. -/
namespace DocAudit
namespace KeyPath

@[simp] def ParseFault.mark? : ParseFault → Option Char
  | .unescapedBracket => some ']'
  | .trailingEscape => some '\\'
  | .unclosedBracket => some '['
  | .unexpectedChar c => some c
  | .emptyPath | .badRootPrefix | .emptyProperty | .invalidIndex _ => none

/-- An index was given up at an unexpected character when its digits had left the range. -/
def ParseFault.Overruns (fault : ParseFault) : Prop :=
  ∃ run c i, fault = .invalidIndex (String.ofList (run ++ [c])) ∧ IndexBody run i ∧
    ¬ Word.IsSigned i ∧ c.isDigit = false

def Begins (reader : List Char → Except Failure KeyPath) (read : List Char) : Prop :=
  ∃ more path, reader (read ++ more) = .ok path

/-- The failure of a reader between the characters that it has read and the rest. -/
structure FaultBetween (reader : List Char → Except Failure KeyPath) (read rest : List Char)
    (failure : Failure) : Prop where
  unread : rest.length = failure.unread
  marked : ∀ c ∈ failure.fault.mark?, rest.head? = some c
  begins_iff : Begins reader read ↔ ¬ failure.fault.Overruns

def FaultIn (reader : List Char → Except Failure KeyPath) (text : List Char) (failure : Failure) :
    Prop :=
  ∃ read rest, text = read ++ rest ∧ FaultBetween reader read rest failure

theorem digits_value_append (s t : List Char) :
    digitsValue (s ++ t) = digitsValue s * Nat.pow 10 t.length + digitsValue t := by
  rw [← decimal_value_eq, decimalValue, List.foldl_append, ← decimalValue, decimal_value_eq,
    decimal_fold]

theorem digits_value_grows (s t : List Char) : digitsValue s ≤ digitsValue (s ++ t) := by
  rw [digits_value_append]
  exact Nat.le_add_right_of_le (Nat.le_mul_of_pos_right _ (Nat.pow_pos (by decide)))

theorem no_sign_in_digits {s t : List Char} (digits : Digits s) : s ≠ '-' :: t := by
  rintro rfl
  exact digit_unsigned (digits.2 '-' List.mem_cons_self) rfl

theorem no_sign_before {s : List Char} (digits : Digits s) (more t : List Char) :
    s ++ more ≠ '-' :: t := by
  cases s with
  | nil => exact absurd rfl digits.1
  | cons c s =>
    intro same
    exact no_sign_in_digits digits (congrArg (· :: s) (List.cons.inj same).1)

theorem range_kept_by_longer_body {body more : List Char} {i j : Int} (short : IndexBody body i)
    (long : IndexBody (body ++ more) j) (fits : Word.IsSigned j) : Word.IsSigned i := by
  generalize joined : body ++ more = whole at long
  cases short with
  | unsigned digits =>
    cases long with
    | unsigned =>
      have grows := digits_value_grows body more
      rw [joined] at grows
      simp only [Word.IsSigned, Word.leastSigned, Word.greatestSigned] at fits ⊢
      omega
    | negative => exact absurd joined (no_sign_before digits _ _)
  | @negative s digits =>
    cases long with
    | unsigned long_digits => exact absurd joined.symm (no_sign_in_digits long_digits)
    | @negative t =>
      obtain rfl : s ++ more = t := (List.cons.inj joined).2
      have grows := digits_value_grows s more
      simp only [Word.IsSigned, Word.leastSigned, Word.greatestSigned] at fits ⊢
      omega

theorem numeral_cases {body : List Char} (numeral : Numeral body) :
    body = [] ∨ body = ['-'] ∨ ∃ i, IndexBody body i := by
  cases body with
  | nil => exact .inl rfl
  | cons c rest =>
    obtain ⟨first, later⟩ := numeral
    have digits : ∀ d ∈ rest, '0' ≤ d ∧ d ≤ '9' := fun d member =>
      (is_digit_iff d).mp (later d member)
    rcases first with rfl | digit
    · by_cases none_yet : rest = []
      · exact .inr (.inl (by rw [none_yet]))
      · exact .inr (.inr ⟨_, .negative ⟨none_yet, digits⟩⟩)
    · refine .inr (.inr ⟨_, .unsigned ⟨by simp, ?_⟩⟩)
      rw [List.forall_mem_cons]
      exact ⟨(is_digit_iff c).mp digit, digits⟩

theorem no_empty_body (i : Int) : ¬ IndexBody [] i := by
  rintro ⟨digits⟩
  exact digits.1 rfl

theorem zero_body : IndexBody ['0'] 0 ∧ IndexBody ['-', '0'] 0 := by
  have digits : Digits ['0'] := ⟨by simp, by simp⟩
  have value : digitsValue ['0'] = 0 := rfl
  refine ⟨?_, ?_⟩
  · simpa [value] using IndexBody.unsigned digits
  · simpa [value] using IndexBody.negative digits

theorem begins_in_body {body s : List Char} {i : Int} (spelled : IndexBody (body ++ s) i)
    (fits : Word.IsSigned i) : Begins (scan .boundary) ('[' :: body) := by
  have run := scan_index ((index_spelling_iff _ i).mpr ⟨_, rfl, spelled, fits⟩) []
  refine ⟨s ++ [']'], [.index i], ?_⟩
  simpa [scan, andThen] using run

theorem body_of_begins {body : List Char} (numeral : Numeral body)
    (begins : Begins (scan .boundary) ('[' :: body)) :
    ∃ s i, IndexBody (body ++ s) i ∧ Word.IsSigned i := by
  obtain ⟨more, path, accepted⟩ := begins
  have run : scan (.index body.reverse) more = .ok path := by
    rwa [List.cons_append, scan, scan_numeral (by simpa using numeral), List.append_nil]
      at accepted
  obtain ⟨s, t, i, -, -, closed, -⟩ :=
    scan_completes (.index body.reverse) (by simpa [Begun] using numeral) run
  obtain ⟨whole, same, spelled, fits⟩ := (index_spelling_iff _ i).mp closed
  rw [List.reverse_reverse] at same
  obtain rfl := List.append_cancel_right (List.cons.inj same).2
  exact ⟨s, i, spelled, fits⟩

theorem index_begins_iff {body : List Char} (numeral : Numeral body) :
    Begins (scan .boundary) ('[' :: body) ↔ ¬ ∃ i, IndexBody body i ∧ ¬ Word.IsSigned i := by
  constructor
  · rintro begins ⟨i, spelled, overrun⟩
    -- More digits only lead further away from zero.
    obtain ⟨s, j, longer, fits⟩ := body_of_begins numeral begins
    exact overrun (range_kept_by_longer_body spelled longer fits)
  · intro inside
    rcases numeral_cases numeral with rfl | rfl | ⟨i, spelled⟩
    · exact begins_in_body (s := ['0']) zero_body.1 (by decide)
    · exact begins_in_body (s := ['0']) zero_body.2 (by decide)
    · by_cases fits : Word.IsSigned i
      · exact begins_in_body (s := []) (by rwa [List.append_nil]) fits
      · exact absurd ⟨i, spelled, fits⟩ inside

theorem reported_digits_inside {text : List Char} (numeral : Numeral text) :
    ¬ (ParseFault.invalidIndex (String.ofList text)).Overruns := by
  rintro ⟨run, c, i, same, spelled, -, no_digit⟩
  obtain rfl : text = run ++ [c] := by
    simpa only [ParseFault.invalidIndex.injEq, String.ofList_inj] using same
  cases run with
  | nil => exact no_empty_body i spelled
  | cons first run =>
    have digit := numeral.2 c (by simp)
    rw [no_digit] at digit
    cases digit

theorem unexpected_overruns_iff {before : List Char} {c : Char}
    (unexpected : ¬ continuesIndex before c = true) :
    (ParseFault.invalidIndex (String.ofList (c :: before).reverse)).Overruns ↔
      ∃ i, IndexBody before.reverse i ∧ ¬ Word.IsSigned i := by
  constructor
  · rintro ⟨run, d, i, same, spelled, overrun, -⟩
    rw [ParseFault.invalidIndex.injEq, String.ofList_inj, List.reverse_cons] at same
    obtain ⟨rfl, -⟩ := List.append_inj' same rfl
    exact ⟨i, spelled, overrun⟩
  · rintro ⟨i, spelled, overrun⟩
    have no_digit : c.isDigit = false := by
      simp only [continuesIndex, Bool.or_eq_true, not_or, Bool.not_eq_true] at unexpected
      exact unexpected.1
    exact ⟨before.reverse, c, i, by rw [List.reverse_cons], spelled, overrun, no_digit⟩

theorem opens_append {text : List Char} (opens : opensComponent text = true) (more : List Char) :
    opensComponent (text ++ more) = true := by
  cases text with
  | nil => cases opens
  | cons c rest => rwa [List.cons_append, opens_at_head c _ rest]

theorem front_opens {read rest : List Char} (opens : Opens (read ++ rest)) : Opens read := by
  cases read with
  | nil => exact .inl rfl
  | cons c read =>
    rcases opens with nothing | opens
    · cases nothing
    · exact .inr (by rwa [opens_at_head c read (read ++ rest)])

theorem begins_in_name (before : List Char) : Begins (scan (.name before)) [] :=
  ⟨['a'], [.property (String.ofList ('a' :: before).reverse)], by
    simp [scan, closeName, andThen]⟩

theorem begins_at_boundary : Begins (scan .boundary) [] := ⟨[], [], rfl⟩

theorem and_then_accepts_iff (c : Component) (rest : Except Failure KeyPath) :
    (∃ path, andThen (.ok c) rest = .ok path) ↔ ∃ path, rest = .ok path := by
  cases rest <;> simp [andThen]

theorem and_then_error {component : Except Failure Component} {rest : Except Failure KeyPath}
    {failure : Failure} (failed : andThen component rest = .error failure) :
    component = .error failure ∨ ∃ c, component = .ok c ∧ rest = .error failure := by
  cases component <;> cases rest <;> simp_all [andThen]

theorem begins_at_name_end {before read : List Char} (some_character : before ≠ [])
    (opens : Opens read) : Begins (scan (.name before)) read ↔ Begins (scan .boundary) read := by
  rcases opens with rfl | opens
  · exact iff_of_true (begins_in_name before) begins_at_boundary
  · refine exists_congr fun more => ?_
    rw [scan_name_close some_character (.inr (opens_append opens more))]
    exact and_then_accepts_iff _ _

section fault
variable {reader later : List Char → Except Failure KeyPath} {text : List Char}
  {failure : Failure}

theorem fault_at_start {fault : ParseFault} {unread : Nat} (begins : Begins reader [])
    (counted : text.length = unread) (marked : ∀ c ∈ fault.mark?, text.head? = some c)
    (no_numeral : ∀ index, fault ≠ .invalidIndex index) : FaultIn reader text ⟨fault, unread⟩ := by
  have inside : ¬ fault.Overruns := fun ⟨_, _, _, same, _⟩ => no_numeral _ same
  exact ⟨[], text, rfl, counted, marked, iff_of_true begins inside⟩

theorem FaultIn.after (front : List Char) (fault : FaultIn later text failure)
    (begins : ∀ read rest, text = read ++ rest →
      (Begins reader (front ++ read) ↔ Begins later read)) :
    FaultIn reader (front ++ text) failure := by
  obtain ⟨read, rest, rfl, unread, marked, begins_iff⟩ := fault
  exact ⟨front ++ read, rest, (List.append_assoc front read rest).symm, unread, marked,
    (begins read rest rfl).trans begins_iff⟩

theorem FaultIn.behind {front : List Char} (fault : FaultIn later text failure)
    (accepts : ∀ more, (∃ path, reader (front ++ more) = .ok path) ↔
      ∃ path, later more = .ok path) : FaultIn reader (front ++ text) failure := by
  refine fault.after front fun read _ _ => exists_congr fun more => ?_
  rw [List.append_assoc]
  exact accepts (read ++ more)

theorem item_fault {s before : List Char} {c : Char} (item : NameItem s c)
    (fault : FaultIn (scan (.name (c :: before))) text failure) :
    FaultIn (scan (.name before)) (s ++ text) failure :=
  fault.behind fun more => by rw [scan_name_item item]

theorem dot_fault (fault : FaultIn (scan (.name [])) text failure) :
    FaultIn (scan .boundary) ('.' :: text) failure := by
  have behind : FaultIn (scan .boundary) (['.'] ++ text) failure :=
    fault.behind fun more => by rw [List.singleton_append, scan]
  exact behind

theorem closed_index_fault {s : List Char} {i : Int} (spelled : IndexSpelling s i)
    (fault : FaultIn (scan .boundary) text failure) :
    FaultIn (scan .boundary) (s ++ text) failure :=
  fault.behind fun more => by
    rw [scan_index spelled]
    exact and_then_accepts_iff _ _

theorem closed_name_fault {before : List Char} {rest : Except Failure KeyPath}
    (run : andThen (closeName before text) rest = .error failure) (opens : Opens text)
    (fault : rest = .error failure → FaultIn (scan .boundary) text failure) :
    FaultIn (scan (.name before)) text failure := by
  rcases and_then_error run with unnamed | ⟨c, closed, failed⟩
  · simp only [closeName] at unnamed
    split at unnamed
    · cases unnamed
      exact fault_at_start (begins_in_name before) rfl (by simp) (by simp)
    · cases unnamed
  · obtain ⟨some_character, -⟩ := close_name_ok closed
    refine (fault failed).after [] fun read rest split => ?_
    exact begins_at_name_end some_character (front_opens (split ▸ opens))

theorem unclosed_index_fault {before : List Char} (numeral : Numeral before.reverse)
    (refused : closeIndex before (']' :: text) = .error failure) :
    FaultIn (scan .boundary) ('[' :: (before.reverse ++ ']' :: text)) failure := by
  have begins : Begins (scan .boundary) ['['] :=
    begins_in_body (s := ['0']) zero_body.1 (by decide)
  simp only [closeIndex] at refused
  split at refused
  · cases refused
  · cases refused
    exact ⟨['['], before.reverse ++ ']' :: text, rfl, by simp, by simp,
      iff_of_true begins (reported_digits_inside numeral)⟩

end fault

def Fails : Scan → List Char → Failure → Prop
  | .boundary, unread, failure => FaultIn (scan .boundary) unread failure
  | .name before, unread, failure => FaultIn (scan (.name before)) unread failure
  | .index before, unread, failure =>
    FaultIn (scan .boundary) ('[' :: (before.reverse ++ unread)) failure

theorem scan_fault (state : Scan) {unread : List Char} {failure : Failure} (begun : Begun state)
    (run : scan state unread = .error failure) :
    Fails state unread failure := by
  -- one case for each way in which the scan takes a character or stops at it
  fun_induction scan state unread with
  | case1 => cases run
  | case2 rest ih => exact dot_fault (ih trivial run)
  | case3 rest ih => exact ih trivial run
  | case4 =>
    cases run
    exact fault_at_start begins_at_boundary rfl (by simp) (by simp)
  | case5 before => exact closed_name_fault run (.inl rfl) (by simp)
  | case6 before rest ih =>
    exact closed_name_fault run (.inr rfl) fun failed => dot_fault (ih trivial failed)
  | case7 before rest ih => exact closed_name_fault run (.inr rfl) fun failed => ih trivial failed
  | case8 before =>
    cases run
    exact fault_at_start (begins_in_name before) rfl (by simp) (by simp)
  | case9 before =>
    cases run
    exact fault_at_start (begins_in_name before) rfl (by simp) (by simp)
  | case10 before c rest ih => exact item_fault (.escaped c) (ih trivial run)
  | case11 before c rest dot opening closing last escape ih =>
    exact item_fault (unread_item dot opening closing last escape) (ih trivial run)
  | case12 before =>
    cases run
    exact fault_at_start begins_at_boundary (by simp) (by simp) (by simp)
  | case13 before rest ih =>
    rcases and_then_error run with refused | ⟨c, closed, failed⟩
    · exact unclosed_index_fault begun refused
    · obtain ⟨i, spelled, -⟩ := close_index_ok begun closed
      simpa [Fails] using closed_index_fault spelled (ih trivial failed)
  | case14 before c rest closing continues ih =>
    simpa [Fails] using ih (continues_numeral begun continues) run
  | case15 before c rest closing unexpected =>
    cases run
    exact ⟨'[' :: before.reverse, c :: rest, rfl, rfl, by simp,
      (index_begins_iff begun).trans (not_congr (unexpected_overruns_iff unexpected)).symm⟩

theorem started_fault (start : List Char) {text : List Char} {state : Scan} {failure : Failure}
    (fault : FaultIn (scan state) text failure) (begins : Begins scanPath start)
    (state_begins : Begins (scan state) [])
    (starts : ∀ c rest, text = c :: rest → ∀ more,
      scanPath (start ++ c :: more) = scan state (c :: more)) :
    FaultIn scanPath (start ++ text) failure := by
  refine fault.after start fun read rest split => ?_
  -- With nothing read the state may differ, as what follows need not open a component.
  cases read with
  | nil =>
    rw [List.append_nil]
    exact iff_of_true begins state_begins
  | cons c read =>
    refine exists_congr fun more => ?_
    rw [List.append_assoc, List.cons_append, starts c _ split]

theorem scan_path_fault {text : List Char} {failure : Failure}
    (run : scanPath text = .error failure) : FaultIn scanPath text failure := by
  have some_path : Begins scanPath [] := ⟨['a'], _, rfl⟩
  have after_root : Begins scanPath ['$'] := ⟨['.', 'a'], _, rfl⟩
  unfold scanPath at run
  split at run
  · cases run
    exact fault_at_start some_path rfl (by simp) (by simp)
  next rest =>
    split at run
    next opens =>
      have fault : FaultIn (scan .boundary) rest failure := scan_fault .boundary trivial run
      refine started_fault ['$'] fault after_root begins_at_boundary ?_
      rintro c later rfl more
      rw [opens_at_head c later more] at opens
      exact scan_path_rooted opens
    next =>
      cases run
      have inside : ¬ ParseFault.badRootPrefix.Overruns := nofun
      exact ⟨['$'], rest, rfl, rfl, by simp, iff_of_true after_root inside⟩
  next nonempty no_root =>
    split at run
    next opens =>
      have fault : FaultIn (scan .boundary) text failure := scan_fault .boundary trivial run
      refine started_fault [] fault some_path begins_at_boundary ?_
      rintro c later rfl more
      rw [opens_at_head c later more] at opens
      exact scan_path_opening opens
    next closed =>
      have fault : FaultIn (scan (.name [])) text failure := scan_fault (.name []) trivial run
      refine started_fault [] fault some_path (begins_in_name []) ?_
      rintro c later rfl more
      have root : c ≠ '$' := by
        rintro rfl
        exact no_root _ rfl
      rw [opens_at_head c later more, Bool.not_eq_true] at closed
      exact scan_path_bare root closed

theorem begins_iff_parse (read : List Char) :
    Begins scanPath read ↔ ∃ more path, parse (String.ofList read ++ more) = .ok path := by
  constructor
  · rintro ⟨more, path, accepted⟩
    refine ⟨String.ofList more, path, (parse_ok_iff _ path).mpr ?_⟩
    simpa using accepted
  · rintro ⟨more, path, parsed⟩
    refine ⟨more.toList, path, ?_⟩
    simpa using (parse_ok_iff _ path).mp parsed

/-- A refused text is reported as it stands, with a place in it. What is before the place starts an
    accepted path, except when an index is given up at an unexpected character whose digits had
    already left the range: then no path starts so. A fault that names a character has it at the
    place. -/
theorem refused_at_sound_position {written : String} {error : ParseError}
    (refused : parse written = .error error) :
    error.path = written ∧ error.position ≤ written.length ∧
      ((∃ more path,
          parse (String.ofList (written.toList.take error.position) ++ more) = .ok path) ↔
        ¬ error.fault.Overruns) ∧
      ∀ c ∈ error.fault.mark?, written.toList[error.position]? = some c := by
  unfold parse at refused
  split at refused
  · cases refused
  next failure failed =>
    cases refused
    obtain ⟨read, rest, split, unread, marked, begins_iff⟩ := scan_path_fault failed
    have position : written.length - failure.unread = read.length := by
      rw [← String.length_toList, split, List.length_append, ← unread, Nat.add_sub_cancel]
    refine ⟨rfl, Nat.sub_le _ _, ?_, ?_⟩
    · rw [position, split, List.take_left, ← begins_iff_parse]
      exact begins_iff
    · intro c mark
      rw [position, split, List.getElem?_append_right (Nat.le_refl _), Nat.sub_self,
        ← List.head?_eq_getElem?]
      exact marked c mark

theorem refused_before_and_after_digits :
    (parse "a\\.[12" = .error ⟨"a\\.[12", 3, .unclosedBracket⟩ ∧
      (∃ more path, parse ("a\\." ++ more) = .ok path) ∧ "a\\.[12".toList[3]? = some '[') ∧
    (parse "a[9223372036854775808x" =
        .error ⟨"a[9223372036854775808x", 21, .invalidIndex "9223372036854775808x"⟩ ∧
      ¬ ∃ more path, parse ("a[9223372036854775808" ++ more) = .ok path) := by
  have unclosed : parse "a\\.[12" = .error ⟨"a\\.[12", 3, .unclosedBracket⟩ := rfl
  have overrun : parse "a[9223372036854775808x" =
      .error ⟨"a[9223372036854775808x", 21, .invalidIndex "9223372036854775808x"⟩ := rfl
  obtain ⟨-, -, goes_on, marked⟩ := refused_at_sound_position unclosed
  obtain ⟨-, -, ends, -⟩ := refused_at_sound_position overrun
  refine ⟨⟨unclosed, goes_on.mpr nofun, marked '[' rfl⟩, overrun, fun begins => ends.mp begins ?_⟩
  have digits : Digits "9223372036854775808".toList :=
    ⟨by simp, fun c member => (is_digit_iff c).mp (List.all_eq_true.mp rfl c member)⟩
  exact ⟨_, 'x', 9223372036854775808, rfl, .unsigned digits, by decide, rfl⟩

end KeyPath
end DocAudit
