import DocAudit.Proofs.JsonRoundTrip
import DocAudit.Proofs.Tables
import DocAudit.Proofs.Verdict

/- A report that is written as JSON and read again. Parts that are missing are left out, and a part
   that is null is written as null; but a null is read as if nothing had been written. So a null
   that a document holds is taken for a missing value, and no other part is lost. -/
namespace DocAudit
namespace Response

def Shows (response : Response) (node : Node) : Prop :=
  response.expected = some node ∨ response.actual = some node ∨ response.document = some node

def mapParts (change : Option Node → Option Node) (response : Response) : Response :=
  { response with
    expected := change response.expected
    actual := change response.actual
    document := change response.document }

def dropNull : Option Node → Option Node
  | some .null => none
  | part => part

def readPart (part : Option Node) : Option Node :=
  (dropNull part).map fun node => .ofJson node.toJson

theorem last_if_some {α : Type} (name : String) (toJson : α → Json) (value : Option α)
    (key : String) :
    Entries.last? key (ifSome name toJson value) =
      if name = key then value.map toJson else none := by
  cases value with
  | none => simp [ifSome, Entries.last?]
  | some a => rw [ifSome, Entries.last_single, Option.map_some]

theorem optional_string {name : String} {members : List (String × Json)} {value : Option String}
    (found : Entries.find? name members = value.map .string) :
    Json.optional? Json.string? name members = some value := by
  cases value <;> simp [Json.optional?, found, Json.string?]

theorem optional_part {name : String} {members : List (String × Json)} {part : Option Node}
    (found : Entries.find? name members = part.map Node.toJson) :
    Json.optional? (fun json => some (Node.ofJson json)) name members = some (readPart part) := by
  rw [Json.optional?, found]
  cases part with
  | none => rfl
  | some node => cases node <;> rfl

def writtenFields (response : Response) : List (String × Json) :=
  [("result", .boolean response.result)] ++
    ifSome "description" .string response.description ++
    ifSome "expected" Node.toJson response.expected ++
    ifSome "actual" Node.toJson response.actual ++
    ifSome "document" Node.toJson response.document

theorem find_written (response : Response) :
    Entries.find? "result" (Entries.ofList response.writtenFields) =
      some (.boolean response.result) ∧
    Entries.find? "description" (Entries.ofList response.writtenFields) =
      response.description.map .string ∧
    Entries.find? "expected" (Entries.ofList response.writtenFields) =
      response.expected.map Node.toJson ∧
    Entries.find? "actual" (Entries.ofList response.writtenFields) =
      response.actual.map Node.toJson ∧
    Entries.find? "document" (Entries.ofList response.writtenFields) =
      response.document.map Node.toJson := by
  simp [Entries.find_of_list, writtenFields, Entries.last_cons, Entries.last_append, last_if_some]

theorem read_again (response : Response) :
    ofJson? response.toJson = some (response.mapParts readPart) := by
  obtain ⟨result, description, expected, actual, document⟩ := find_written response
  have written : response.toJson = .object (Entries.ofList response.writtenFields) := rfl
  simp only [written, ofJson?, Json.record?, Json.required?, result, optional_string description,
    optional_part expected, optional_part actual, optional_part document, Option.bind_eq_bind,
    Option.bind_some, Json.boolean?]
  rfl

section part
variable {part : Option Node}

theorem drop_null_eq_iff : dropNull part = part ↔ part ≠ some .null := by
  cases part with
  | none => simp [dropNull]
  | some node => cases node <;> simp [dropNull]

theorem drop_null_identical_iff :
    identicalNodes (dropNull part) part = true ↔ part ≠ some .null := by
  cases part with
  | none => simp [dropNull, identicalNodes]
  | some node => cases node <;> simp [dropNull, identicalNodes, Node.identical_self]

theorem read_part_unchanged
    (unchanged : ∀ node, part = some node → (Node.ofJson node.toJson).identical node = true) :
    readPart part = dropNull part := by
  cases part with
  | none => rfl
  | some node =>
    obtain ⟨equal, identical⟩ := Node.read_as_itself_iff node
    have same : Node.ofJson node.toJson = node := equal.mpr (identical.mp (unchanged node rfl))
    cases node <;> simp [readPart, dropNull, same]

end part

theorem drop_nulls_eq_iff (response : Response) :
    response.mapParts dropNull = response ↔ ¬ response.Shows .null := by
  obtain ⟨result, description, expected, actual, document⟩ := response
  simp [mapParts, Shows, drop_null_eq_iff]

theorem drop_nulls_identical_iff (response : Response) :
    (response.mapParts dropNull).identical response = true ↔ ¬ response.Shows .null := by
  simp [identical, mapParts, Shows, drop_null_identical_iff, and_assoc]

section answer
variable {snapshot : Snapshot} {source : DocumentSource} {changes : List Change}
  {loader : BlobLoader} {response : Response}

theorem compare_with_null {body : Node} {mismatch : Mismatch}
    (compared : Comparison.compare body .null = some mismatch) : mismatch.actual = some .null := by
  cases body <;> cases compared <;> rfl

/-- A null document differs as a whole, so it is shown as the actual value too. -/
theorem null_shown_iff (answered : snapshot.verify source changes loader = .ok response) :
    response.Shows .null ↔ response.expected = some .null ∨ response.actual = some .null := by
  refine ⟨?_, Or.imp_right .inl⟩
  rintro (expected | actual | document)
  · exact .inl expected
  · exact .inr actual
  · obtain ⟨body, mismatch, compared, -, actual⟩ := Audit.shown_document answered document
    exact .inr (actual.trans (compare_with_null compared))

/-- What becomes of the report of an audit on its way over the wire, if its trees do. Everything is
    read as it was written, but a part that is null is read as missing. So the report is read as
    itself unless it shows a null as one of the values that differ; equality is meant both as being
    the same and as the equality of reports. -/
theorem answer_read_again (answered : snapshot.verify source changes loader = .ok response)
    (plain : ∀ node, response.Shows node →
      node.MetadataOnly ∧ (Node.ofJson node.toJson).identical node = true) :
    ofJson? response.toJson = some (response.mapParts dropNull) ∧
    (response.mapParts dropNull = response ↔
      response.expected ≠ some .null ∧ response.actual ≠ some .null) ∧
    ((response.mapParts dropNull).identical response = true ↔
      response.expected ≠ some .null ∧ response.actual ≠ some .null) := by
  have expected := read_part_unchanged fun node shown => (plain node (.inl shown)).2
  have actual := read_part_unchanged fun node shown => (plain node (.inr (.inl shown))).2
  have document := read_part_unchanged fun node shown => (plain node (.inr (.inr shown))).2
  rw [drop_nulls_eq_iff, drop_nulls_identical_iff, null_shown_iff answered, not_or]
  refine ⟨?_, Iff.rfl, Iff.rfl⟩
  rw [read_again, mapParts, mapParts, expected, actual, document]

end answer

def recordedBody (body : Node) : Snapshot :=
  (Snapshot.empty .default).insert ⟨⟨"_default", "c"⟩, "d"⟩ (some body)

def numberNow : DocumentSource :=
  fun _ => .ok (some (.dictionary [("a", .number (.integer 1))]))

def numberReport (expected : Option Node) : Response :=
  ⟨false, some "Document 'd' in '_default.c' had unexpected properties at key 'a'", expected,
    some (.number (.integer 1)), some (.dictionary [("a", .number (.integer 1))])⟩

theorem number_report_plain {expected : Option Node}
    (absent : expected = none ∨ expected = some .null) (node : Node)
    (shown : (numberReport expected).Shows node) :
    node.MetadataOnly ∧ (Node.ofJson node.toJson).identical node = true := by
  rcases shown with shown | shown | shown
  · rcases absent with rfl | rfl <;> cases shown
    exact ⟨trivial, rfl⟩
  · cases shown
    exact ⟨trivial, rfl⟩
  · cases shown
    exact ⟨⟨trivial, trivial, trivial⟩, rfl⟩

/-- In a document the key `a` has a number now. It was null when the document was recorded, or it was
    not there; the two reports differ, and so does their JSON, but both are read as the second. -/
theorem missing_key_read_again :
    (recordedBody (.dictionary [])).verify numberNow [] .none = .ok (numberReport none) ∧
    ofJson? (numberReport none).toJson = some (numberReport none) := by
  have answered :
      (recordedBody (.dictionary [])).verify numberNow [] .none = .ok (numberReport none) := rfl
  exact ⟨answered, (answer_read_again answered (number_report_plain (.inl rfl))).1⟩

theorem null_read_as_missing :
    (recordedBody (.dictionary [("a", .null)])).verify numberNow [] .none =
      .ok (numberReport (some .null)) ∧
    (∀ node, (numberReport (some .null)).Shows node →
      node.MetadataOnly ∧ (Node.ofJson node.toJson).identical node = true) ∧
    (numberReport (some .null)).toJson ≠ (numberReport none).toJson ∧
    ofJson? (numberReport (some .null)).toJson = some (numberReport none) ∧
    (numberReport none).identical (numberReport (some .null)) = false := by
  refine ⟨rfl, number_report_plain (.inr rfl), fun same => ?_, read_again _, rfl⟩
  have written (response : Response) :
      response.toJson.member? "expected" = response.expected.map Node.toJson :=
    (find_written response).2.2.1
  have member := congrArg (Json.member? "expected") same
  rw [written, written] at member
  cases member

end Response
end DocAudit
