import DocAudit.Audit
import DocAudit.Proofs.CachedReplay

/- The outcome of an audit, said without the audit's own walk. A request is refused for the first of
   its changes that is at fault by itself. Otherwise each recorded document has a verdict of its
   own, which depends on what was recorded, on the last change that names the document and on the
   source, but on no other document; the answer is that of the first document that does not pass. -/
namespace DocAudit
namespace Audit

def requestFault? (snapshot : Snapshot) (change : Change) : Option AuditError :=
  match CollectionName.parseIn snapshot.config.defaultScope change.collection with
  | .error error => some (.invalidCollection error)
  | .ok collection =>
    if (snapshot.documents.find? ⟨collection, change.documentId⟩).isSome then none
    else some (.unknownKey ⟨collection, change.documentId⟩)

def names (scope : String) (key : DocumentKey) (change : Change) : Bool :=
  match CollectionName.parseIn scope change.collection with
  | .error _ => false
  | .ok collection => key = ⟨collection, change.documentId⟩

def lastChange? (scope : String) (changes : List Change) (key : DocumentKey) : Option Change :=
  changes.reverse.find? (names scope key)

def claimedBody (loader : BlobLoader) (recorded : Option Node) :
    Option Change → Except AuditError (Option Node)
  | none => .ok recorded
  | some change =>
    match change.kind with
    | .delete => .ok none
    | .purge => .ok none
    | .update =>
      match (change.apply loader .empty (recorded.getD (.dictionary []))).1 with
      | .ok body => .ok (some body)
      | .error error => .error error

inductive Verdict where
  | pass
  | fail (response : Response)
  | stuck (error : AuditError)

def Verdict.answer? : Verdict → Option (Except AuditError Response)
  | .pass => none
  | .fail response => some (.ok response)
  | .stuck error => some (.error error)

def complaint (key : DocumentKey) (what : String) : Response :=
  ⟨false, some (key.text ++ " " ++ what), none, none, none⟩

def verdictOnBodies (includeDocument : Bool) (key : DocumentKey) (kind : Option ChangeKind) :
    Option Node → Option Node → Verdict
  | none, none => .pass
  | none, some _ =>
    match kind with
    | some .delete => .fail (complaint key "was not deleted")
    | some .purge => .fail (complaint key "was not purged")
    | _ => .fail (complaint key "should not exist")
  | some _, none => .fail (complaint key "was not found")
  | some expected, some actual =>
    match Comparison.compare expected actual with
    | none => .pass
    | some ⟨location, expectedPart, actualPart, reason⟩ =>
      let what := match reason with
        | .mismatchedProperty => "had unexpected properties at key '"
        | .missingBlobFile => "had non-existing blob at key '"
      .fail ⟨false, some (key.text ++ " " ++ (what ++ location.render ++ "'")), expectedPart,
        actualPart, if includeDocument then some actual else none⟩

/-- The verdict on one document, from the last change that names it. A replay that cannot be done
    comes before a source that cannot answer. -/
def verdict (config : Config) (source : DocumentSource) (loader : BlobLoader)
    (change : Option Change) (key : DocumentKey) (recorded : Option Node) : Verdict :=
  match claimedBody loader recorded change with
  | .error error => .stuck error
  | .ok expected =>
    match source key with
    | .error error => .stuck error
    | .ok actual =>
      verdictOnBodies config.includeDocument key (change.map Change.kind) expected actual

def Precedes (a b : DocumentKey) : Prop :=
  a.collection.scope < b.collection.scope ∨
    a.collection.scope = b.collection.scope ∧
      (a.collection.name < b.collection.name ∨
        a.collection.name = b.collection.name ∧ a.id < b.id)

theorem document_key_fault (snapshot : Snapshot) (change : Change) :
    (match change.documentKey snapshot.config.defaultScope with
      | .error error => some error
      | .ok key => if snapshot.contains key then none else some (.unknownKey key)) =
      requestFault? snapshot change := by
  unfold Change.documentKey requestFault?
  cases CollectionName.parseIn snapshot.config.defaultScope change.collection <;> rfl

theorem names_iff (scope : String) (key : DocumentKey) (change : Change) :
    names scope key change = true ↔ change.documentKey scope = .ok key := by
  unfold names Change.documentKey
  cases CollectionName.parseIn scope change.collection with
  | error error => simp
  | ok collection => simp [eq_comm]

theorem last_change_cons (scope : String) (first : Change) (rest : List Change)
    (key : DocumentKey) :
    lastChange? scope (first :: rest) key =
      (lastChange? scope rest key).or (if names scope key first then some first else none) := by
  unfold lastChange?
  rw [List.reverse_cons, List.find?_append]
  cases named : names scope key first <;> simp [named]

theorem last_changes_fault {snapshot : Snapshot} {changes : List Change} {error : AuditError}
    (fault : changes.findSome? (requestFault? snapshot) = some error)
    (named : Table DocumentKey Change) : lastChanges snapshot named changes = .error error := by
  induction changes generalizing named with
  | nil => simp at fault
  | cons first rest ih =>
    rw [List.findSome?_cons, ← document_key_fault] at fault
    unfold lastChanges
    cases keyed : first.documentKey snapshot.config.defaultScope with
    | error other => simpa [keyed] using fault
    | ok key =>
      by_cases recorded : snapshot.contains key
      · simp only [keyed, recorded, ↓reduceIte] at fault ⊢
        exact ih fault _
      · simpa [keyed, recorded] using fault

theorem last_changes_found {snapshot : Snapshot} {changes : List Change}
    (sound : changes.findSome? (requestFault? snapshot) = none)
    (named : Table DocumentKey Change) :
    ∃ table, lastChanges snapshot named changes = .ok table ∧
      ∀ key, table.find? key =
        (lastChange? snapshot.config.defaultScope changes key).or (named.find? key) := by
  induction changes generalizing named with
  | nil => exact ⟨named, rfl, fun key => rfl⟩
  | cons first rest ih =>
    rw [List.findSome?_cons, ← document_key_fault] at sound
    unfold lastChanges
    cases keyed : first.documentKey snapshot.config.defaultScope with
    | error other => simp [keyed] at sound
    | ok key =>
      by_cases recorded : snapshot.contains key
      · simp only [keyed, recorded, ↓reduceIte] at sound ⊢
        -- a later change of the same document takes the place of this one
        obtain ⟨table, run, found⟩ := ih sound (named.insert key first)
        refine ⟨table, run, fun probe => ?_⟩
        rw [found, Table.find_after_insert, last_change_cons, Option.or_assoc]
        congr 1
        have same : names snapshot.config.defaultScope probe first = decide (probe = key) := by
          rw [Bool.eq_iff_iff, names_iff, keyed]
          simp [eq_comm]
        rw [same]
        by_cases here : probe = key <;> simp [here]
      · simp [keyed, recorded] at sound

theorem expected_body_claimed {cache : PathCache} (sound : cache.Sound) (loader : BlobLoader)
    (recorded : Option Node) (change : Option Change) :
    (expectedBody loader cache recorded change).1 = claimedBody loader recorded change ∧
      (expectedBody loader cache recorded change).2.Sound := by
  cases change with
  | none => exact ⟨rfl, sound⟩
  | some change =>
    obtain ⟨outcome, kept⟩ :=
      apply_from_sound sound change loader (recorded.getD (.dictionary []))
    simp only [expectedBody, claimedBody]
    rw [← outcome]
    cases change.kind with
    | delete => exact ⟨rfl, sound⟩
    | purge => exact ⟨rfl, sound⟩
    | update =>
      rcases applied : change.apply loader cache (recorded.getD (.dictionary []))
        with ⟨_ | body, next⟩
      · rw [applied] at kept
        exact ⟨rfl, kept⟩
      · rw [applied] at kept
        exact ⟨rfl, kept⟩

theorem check_verdict (includeDocument : Bool) (key : DocumentKey) (kind : Option ChangeKind)
    (expected actual : Option Node) :
    (verdictOnBodies includeDocument key kind expected actual).answer? =
      (check includeDocument key kind expected actual).map .ok := by
  cases expected with
  | none =>
    cases actual with
    | none => rfl
    | some actual => rcases kind with _ | _ | _ | _ <;> rfl
  | some expected =>
    cases actual with
    | none => rfl
    | some actual =>
      simp only [verdictOnBodies, check]
      rcases Comparison.compare expected actual with _ | ⟨location, _, _, _ | _⟩ <;> rfl

theorem audit_documents_outcome (config : Config) (changes : Table DocumentKey Change)
    (source : DocumentSource) (loader : BlobLoader) {cache : PathCache} (sound : cache.Sound)
    (documents : List (DocumentKey × Option Node)) :
    (auditDocuments config changes source loader cache documents).outcome =
      (documents.findSome? fun entry =>
        (verdict config source loader (changes.find? entry.1) entry.1 entry.2).answer?).getD
          (.ok .success) := by
  induction documents generalizing cache with
  | nil => rfl
  | cons entry rest ih =>
    obtain ⟨key, recorded⟩ := entry
    obtain ⟨claimed, kept⟩ :=
      expected_body_claimed sound loader recorded (changes.find? key)
    simp only [List.findSome?_cons, auditDocuments, verdict, ← claimed]
    -- the cache that is handed on is sound, so the next document is claimed afresh
    rcases run : expectedBody loader cache recorded (changes.find? key) with ⟨_ | expected, next⟩
    · rfl
    · rw [run] at kept
      dsimp only
      cases source key with
      | error error => rfl
      | ok actual =>
        dsimp only
        rw [check_verdict]
        cases check config.includeDocument key ((changes.find? key).map Change.kind) expected
          actual with
        | some response => rfl
        | none => exact ih kept

theorem failing_response_result {includeDocument : Bool} {key : DocumentKey}
    {kind : Option ChangeKind} {expected actual : Option Node} {response : Response}
    (failing : verdictOnBodies includeDocument key kind expected actual = .fail response) :
    response.result = false := by
  unfold verdictOnBodies at failing
  split at failing
  · cases failing
  · split at failing <;> (cases failing; rfl)
  · cases failing
    rfl
  · split at failing
    · cases failing
    · cases failing
      rfl

theorem report_with_document {includeDocument : Bool} {key : DocumentKey}
    {kind : Option ChangeKind} {expected actual : Option Node} {response : Response}
    (failing : verdictOnBodies includeDocument key kind expected actual = .fail response)
    {document : Node} (shown : response.document = some document) :
    ∃ body mismatch, Comparison.compare body document = some mismatch ∧
      response.expected = mismatch.expected ∧ response.actual = mismatch.actual := by
  unfold verdictOnBodies at failing
  split at failing
  · cases failing
  · split at failing <;> (cases failing; cases shown)
  · cases failing
    cases shown
  next expected actual =>
    cases compared : Comparison.compare expected actual with
    | none => simp [compared] at failing
    | some mismatch =>
      simp only [compared, Verdict.fail.injEq] at failing
      subst failing
      simp only [Option.ite_none_right_eq_some, Option.some.injEq] at shown
      obtain ⟨-, rfl⟩ := shown
      exact ⟨expected, mismatch, compared, rfl, rfl⟩

theorem verdict_answer_not_success (config : Config) (source : DocumentSource)
    (loader : BlobLoader) (change : Option Change) (key : DocumentKey) (recorded : Option Node) :
    (verdict config source loader change key recorded).answer? ≠ some (.ok .success) := by
  unfold verdict
  cases claimedBody loader recorded change with
  | error error => simp [Verdict.answer?]
  | ok expected =>
    cases source key with
    | error error => simp [Verdict.answer?]
    | ok actual =>
      dsimp only
      cases judged : verdictOnBodies config.includeDocument key (change.map Change.kind) expected
        actual with
      | pass => simp [Verdict.answer?]
      | stuck error => simp [Verdict.answer?]
      | fail response =>
        intro success
        have result := failing_response_result judged
        cases success
        cases result

theorem answer_none_iff (verdict : Verdict) : verdict.answer? = none ↔ verdict = .pass := by
  cases verdict <;> simp [Verdict.answer?]

theorem answer_ok_iff (verdict : Verdict) (response : Response) :
    verdict.answer? = some (.ok response) ↔ verdict = .fail response := by
  cases verdict <;> simp [Verdict.answer?]

theorem precedes_of_compare {a b : DocumentKey} (less : compare a b = .lt) : Precedes a b := by
  simp only [compare, DocumentKey.order, compareLex, compareOn, Ordering.then_eq_lt] at less
  rcases less with scope | ⟨scope, name | ⟨name, id⟩⟩
  · exact Or.inl (compareOfLessAndEq_eq_lt.mp scope)
  · exact Or.inr ⟨Std.LawfulEqOrd.eq_of_compare scope,
      Or.inl (compareOfLessAndEq_eq_lt.mp name)⟩
  · exact Or.inr ⟨Std.LawfulEqOrd.eq_of_compare scope,
      Or.inr ⟨Std.LawfulEqOrd.eq_of_compare name, compareOfLessAndEq_eq_lt.mp id⟩⟩

theorem compare_of_precedes {a b : DocumentKey} (precedes : Precedes a b) :
    compare a b = .lt := by
  have self (s : String) : compare s s = .eq := Std.ReflOrd.compare_self
  simp only [compare, DocumentKey.order, compareLex, compareOn, Ordering.then_eq_lt] at self ⊢
  rcases precedes with scope | ⟨scope, name | ⟨name, id⟩⟩
  · exact Or.inl (compareOfLessAndEq_eq_lt.mpr scope)
  · rw [scope, self]
    exact Or.inr ⟨rfl, Or.inl (compareOfLessAndEq_eq_lt.mpr name)⟩
  · rw [scope, name, self, self]
    exact Or.inr ⟨rfl, Or.inr ⟨rfl, compareOfLessAndEq_eq_lt.mpr id⟩⟩

theorem precedes_asymmetric {a b : DocumentKey} (before : Precedes a b) : ¬ Precedes b a := by
  intro after
  have descending := Std.OrientedCmp.gt_of_lt (compare_of_precedes before)
  rw [compare_of_precedes after] at descending
  cases descending

theorem documents_in_order (snapshot : Snapshot) :
    snapshot.documents.entries.Pairwise fun a b => Precedes a.1 b.1 :=
  snapshot.documents.ascending.imp precedes_of_compare

def verdictOf (snapshot : Snapshot) (source : DocumentSource) (changes : List Change)
    (loader : BlobLoader) (document : DocumentKey × Option Node) : Verdict :=
  verdict snapshot.config source loader
    (lastChange? snapshot.config.defaultScope changes document.1) document.1 document.2

theorem run_outcome {snapshot : Snapshot} {changes : List Change}
    (sound : changes.findSome? (requestFault? snapshot) = none) (source : DocumentSource)
    (loader : BlobLoader) :
    snapshot.verify source changes loader =
      (snapshot.documents.entries.findSome? fun document =>
        (verdictOf snapshot source changes loader document).answer?).getD (.ok .success) := by
  obtain ⟨table, built, found⟩ := last_changes_found sound Table.empty
  unfold Snapshot.verify run
  rw [built]
  simp only [audit_documents_outcome _ _ _ _ PathCache.empty_sound, found, Table.find_empty,
    Option.or_none, verdictOf]

section answer
variable {snapshot : Snapshot} {source : DocumentSource} {changes : List Change}
  {loader : BlobLoader} {response : Response}

theorem answering_document (answered : snapshot.verify source changes loader = .ok response) :
    response = .success ∨ ∃ document ∈ snapshot.documents.entries,
      verdictOf snapshot source changes loader document = .fail response := by
  cases fault : changes.findSome? (requestFault? snapshot) with
  | some error =>
    rw [Snapshot.verify, run, last_changes_fault fault] at answered
    cases answered
  | none =>
    rw [run_outcome fault] at answered
    cases first : snapshot.documents.entries.findSome? fun document =>
      (verdictOf snapshot source changes loader document).answer? with
    | none =>
      rw [first] at answered
      cases answered
      exact .inl rfl
    | some answer =>
      obtain ⟨document, member, judged⟩ := List.exists_of_findSome?_eq_some first
      rw [first, Option.getD_some] at answered
      rw [answered, answer_ok_iff] at judged
      exact .inr ⟨document, member, judged⟩

theorem shown_document (answered : snapshot.verify source changes loader = .ok response)
    {document : Node} (shown : response.document = some document) :
    ∃ body mismatch, Comparison.compare body document = some mismatch ∧
      response.expected = mismatch.expected ∧ response.actual = mismatch.actual := by
  rcases answering_document answered with rfl | ⟨recorded, -, failing⟩
  · cases shown
  · unfold verdictOf verdict at failing
    split at failing
    · cases failing
    · split at failing
      · cases failing
      · exact report_with_document failing shown

end answer

/-- The answer to a request: the fault of the first change that is at fault by itself; else, in the
    order of the keys, the answer of the first document that does not pass; else success, which
    is answered only if every recorded document passes. -/
theorem verify_exact (snapshot : Snapshot) (source : DocumentSource) (changes : List Change)
    (loader : BlobLoader) :
    snapshot.verify source changes loader =
        (match changes.findSome? (requestFault? snapshot) with
        | some error => .error error
        | none =>
          (snapshot.documents.entries.findSome? fun document =>
            (verdictOf snapshot source changes loader document).answer?).getD (.ok .success)) ∧
      (snapshot.verify source changes loader = .ok .success ↔
        (∀ change ∈ changes, requestFault? snapshot change = none) ∧
          ∀ document ∈ snapshot.documents.entries,
            verdictOf snapshot source changes loader document = .pass) ∧
      snapshot.documents.entries.Pairwise fun a b => Precedes a.1 b.1 := by
  refine ⟨?answer, ?success, documents_in_order snapshot⟩
  case answer =>
    cases fault : changes.findSome? (requestFault? snapshot) with
    | some error =>
      unfold Snapshot.verify run
      rw [last_changes_fault fault]
    | none => exact run_outcome fault source loader
  case success =>
    rw [← List.findSome?_eq_none_iff]
    cases fault : changes.findSome? (requestFault? snapshot) with
    | some error =>
      unfold Snapshot.verify run
      rw [last_changes_fault fault]
      simp
    | none =>
      rw [run_outcome fault source loader]
      simp only [true_and, ← answer_none_iff, ← List.findSome?_eq_none_iff]
      cases first : snapshot.documents.entries.findSome? fun document =>
        (verdictOf snapshot source changes loader document).answer? with
      | none => simp
      | some answer =>
        obtain ⟨document, _, answered⟩ := List.exists_of_findSome?_eq_some first
        simp only [Option.getD_some, reduceCtorEq, iff_false]
        rintro rfl
        exact verdict_answer_not_success _ _ _ _ _ _ answered

end Audit
end DocAudit
