import DocAudit.Proofs.AlikeTrees
import DocAudit.Proofs.OrderedReplay
import DocAudit.Proofs.Verdict

/- An audit of a source that agrees with the changes. Every recorded document is then compared with
   itself, so it passes if all its blobs are loaded. The first document of which this is not so ends
   the audit, and the report is about the first blob without content there; no other answer is
   possible. -/
namespace DocAudit
open Comparison (FirstUnloaded alike_self_iff unloaded_self)

def Store.Ordered (store : Store) : Prop :=
  ∀ key body, store.find? key = some body → body.Ordered

theorem Store.empty_ordered : Store.empty.Ordered := by
  intro key body found
  cases found

theorem Store.ordered_save {store : Store} {key : DocumentKey} {body : Node}
    (ordered : store.Ordered) (body_ordered : body.Ordered) : (store.save key body).Ordered := by
  intro other held found
  rw [Store.find?, Store.save, Table.find_after_insert] at found
  split at found
  next =>
    cases found
    exact body_ordered
  next => exact ordered other held found

def Snapshot.RecordedFrom (snapshot : Snapshot) (source : DocumentSource) : Prop :=
  ∀ key body, snapshot.documents.find? key = some body → source key = .ok body

theorem record_from {snapshot : Snapshot} {source : DocumentSource}
    (before : snapshot.RecordedFrom source) (entry : DocumentEntry) :
    (snapshot.record source entry).1.RecordedFrom source := by
  unfold Snapshot.record
  cases parsed : CollectionName.parseIn snapshot.config.defaultScope entry.collection with
  | error error => exact before
  | ok collection =>
    dsimp only
    cases answered : source ⟨collection, entry.id⟩ with
    | error error => exact before
    | ok body =>
      intro key other found
      simp only [Snapshot.insert, Table.find_after_insert] at found
      split at found
      next same =>
        cases found
        rw [same, answered]
      next => exact before key other found

theorem record_all_from {snapshot after : Snapshot} {source : DocumentSource}
    {entries : List DocumentEntry} {outcome : Except AuditError Unit}
    (before : snapshot.RecordedFrom source)
    (recorded : snapshot.recordAll source entries = (after, outcome)) :
    after.RecordedFrom source := by
  induction entries generalizing snapshot with
  | nil =>
    cases recorded
    exact before
  | cons entry rest ih =>
    have next_before := record_from before entry
    unfold Snapshot.recordAll at recorded
    rcases first : snapshot.record source entry with ⟨next, error | done⟩
    · simp only [first] at recorded next_before
      cases recorded
      exact next_before
    · simp only [first] at recorded next_before
      exact ih next_before recorded

theorem recorded_from_store {config : Config} {store : Store} {snapshot : Snapshot}
    {entries : List DocumentEntry} {outcome : Except AuditError Unit}
    (recorded : (Snapshot.empty config).recordAll store.source entries = (snapshot, outcome)) :
    snapshot.RecordedFrom store.source :=
  record_all_from (fun _ _ found => by cases found) recorded

namespace Audit

/-- Of every recorded document the changes make something, and the source says just that of it. -/
def Agrees (snapshot : Snapshot) (changes : List Change) (loader : BlobLoader)
    (source : DocumentSource) : Prop :=
  ∀ key recorded, snapshot.documents.find? key = some recorded → ∃ body,
    claimedBody loader recorded (lastChange? snapshot.config.defaultScope changes key) =
      .ok body ∧ source key = .ok body

def NamesRecorded (snapshot : Snapshot) (change : Change) : Prop :=
  ∃ key, change.documentKey snapshot.config.defaultScope = .ok key ∧ snapshot.contains key = true

def HoldsLoaded (source : DocumentSource) (key : DocumentKey) : Prop :=
  ∀ body, source key = .ok (some body) → body.Loaded

def HoldsOrdered (snapshot : Snapshot) (source : DocumentSource) : Prop :=
  ∀ key body, snapshot.contains key = true → source key = .ok (some body) → body.Ordered

structure FirstNotLoaded (snapshot : Snapshot) (source : DocumentSource) (key : DocumentKey)
    (body : Node) : Prop where
  recorded : snapshot.contains key = true
  held : source key = .ok (some body)
  not_loaded : ¬ body.Loaded
  earlier_loaded : ∀ other, snapshot.contains other = true → Precedes other key →
    HoldsLoaded source other

def missingBlob (config : Config) (key : DocumentKey) (body : Node) (location : KeyPath)
    (blob : Blob) : Response :=
  { complaint key ("had non-existing blob at key '" ++ location.render ++ "'") with
    expected := some (.blob blob)
    actual := some (.blob blob)
    document := if config.includeDocument then some body else none }

theorem named_without_fault {snapshot : Snapshot} {change : Change}
    (named : NamesRecorded snapshot change) : requestFault? snapshot change = none := by
  obtain ⟨key, keyed, recorded⟩ := named
  rw [← document_key_fault, keyed]
  simp [recorded]

section bodies
variable {key : DocumentKey} {kind : Option ChangeKind} {body : Node}

theorem verdict_loaded (includeDocument : Bool) (ordered : body.Ordered) (loaded : body.Loaded) :
    verdictOnBodies includeDocument key kind (some body) (some body) = .pass := by
  simp only [verdictOnBodies, (alike_self_iff ordered).mpr loaded]

theorem verdict_not_loaded (config : Config) (ordered : body.Ordered)
    (not_loaded : ¬ body.Loaded) : ∃ location blob, FirstUnloaded body location blob ∧
      verdictOnBodies config.includeDocument key kind (some body) (some body) =
        .fail (missingBlob config key body location blob) := by
  obtain ⟨location, blob, first, reported⟩ := unloaded_self ordered not_loaded
  refine ⟨location, blob, first, ?_⟩
  simp only [verdictOnBodies, reported, missingBlob, complaint]

end bodies

theorem claimed_ordered {loader : BlobLoader} {recorded : Option Node} {change : Option Change}
    (recorded_ordered : ∀ body ∈ recorded, body.Ordered)
    (change_ordered : ∀ named ∈ change, named.Ordered) {body : Node}
    (claimed : claimedBody loader recorded change = .ok (some body)) : body.Ordered := by
  cases change with
  | none =>
    cases claimed
    exact recorded_ordered body rfl
  | some change =>
    simp only [claimedBody] at claimed
    cases kind : change.kind with
    | delete => simp [kind] at claimed
    | purge => simp [kind] at claimed
    | update =>
      simp only [kind] at claimed
      cases applied : (change.apply loader .empty (recorded.getD (.dictionary []))).1 with
      | error error => simp [applied] at claimed
      | ok after =>
        simp only [applied, Except.ok.injEq, Option.some.injEq] at claimed
        subst claimed
        refine apply_ordered PathCache.empty_sound (change_ordered change rfl) ?_ applied
        cases recorded with
        | none => simp [Node.Ordered, Node.OrderedEntries, Entries.Ascending]
        | some body => exact recorded_ordered body rfl

theorem last_change_mem {scope : String} {changes : List Change} {key : DocumentKey}
    {change : Change} (last : lastChange? scope changes key = some change) : change ∈ changes :=
  List.mem_reverse.mp (List.mem_of_find?_eq_some last)

section agreeing
variable {snapshot : Snapshot} {changes : List Change} {loader : BlobLoader}
  {source : DocumentSource}

theorem verdict_agreeing (agrees : Agrees snapshot changes loader source)
    {document : DocumentKey × Option Node} (member : document ∈ snapshot.documents.entries) :
    ∃ body, source document.1 = .ok body ∧
      verdictOf snapshot source changes loader document =
        verdictOnBodies snapshot.config.includeDocument document.1
          ((lastChange? snapshot.config.defaultScope changes document.1).map Change.kind)
          body body := by
  have found := Entries.find_of_mem snapshot.documents.ascending member
  obtain ⟨body, claimed, answered⟩ := agrees document.1 document.2 found
  refine ⟨body, answered, ?_⟩
  simp only [verdictOf, verdict, claimed, answered]

theorem agreeing_ordered (agrees : Agrees snapshot changes loader source)
    (recorded_ordered : ∀ key body, snapshot.documents.find? key = some (some body) → body.Ordered)
    (changes_ordered : ∀ change ∈ changes, change.Ordered) : HoldsOrdered snapshot source := by
  intro key body recorded held
  obtain ⟨before, found⟩ := Option.isSome_iff_exists.mp recorded
  obtain ⟨after, claimed, answered⟩ := agrees key before found
  rw [held, Except.ok.injEq] at answered
  subst answered
  refine claimed_ordered ?_ ?_ claimed
  · intro body same
    cases same
    exact recorded_ordered key body found
  · intro change last
    exact changes_ordered change (last_change_mem last)

theorem contains_of_mem {document : DocumentKey × Option Node}
    (member : document ∈ snapshot.documents.entries) : snapshot.contains document.1 = true := by
  rw [Snapshot.contains, Table.contains, Table.find?,
    Entries.find_of_mem snapshot.documents.ascending member]
  rfl

theorem mem_of_contains {key : DocumentKey} (recorded : snapshot.contains key = true) :
    ∃ document ∈ snapshot.documents.entries, document.1 = key := by
  obtain ⟨body, found⟩ := Option.isSome_iff_exists.mp recorded
  exact ⟨(key, body), Entries.mem_of_find found, rfl⟩

theorem mem_before {before after : List (DocumentKey × Option Node)}
    {document earlier : DocumentKey × Option Node}
    (split : snapshot.documents.entries = before ++ document :: after)
    (member : earlier ∈ snapshot.documents.entries) (precedes : Precedes earlier.1 document.1) :
    earlier ∈ before := by
  have in_order := documents_in_order snapshot
  rw [split] at in_order member
  rcases List.mem_append.mp member with first | later
  · exact first
  · rcases List.mem_cons.mp later with same | later
    · rw [same] at precedes
      exact absurd precedes (precedes_asymmetric precedes)
    · have descends := (List.pairwise_cons.mp (List.pairwise_append.mp in_order).2.1).1
      exact absurd precedes (precedes_asymmetric (descends earlier later))

theorem answer_agreeing (agrees : Agrees snapshot changes loader source)
    (ordered : HoldsOrdered snapshot source)
    {document : DocumentKey × Option Node} (member : document ∈ snapshot.documents.entries) :
    (HoldsLoaded source document.1 ∧
      (verdictOf snapshot source changes loader document).answer? = none) ∨
    ∃ body location blob, source document.1 = .ok (some body) ∧ ¬ body.Loaded ∧
      FirstUnloaded body location blob ∧
      (verdictOf snapshot source changes loader document).answer? =
        some (.ok (missingBlob snapshot.config document.1 body location blob)) := by
  obtain ⟨body, answered, judged⟩ := verdict_agreeing agrees member
  rw [judged]
  cases body with
  | none =>
    refine Or.inl ⟨fun body held => ?_, rfl⟩
    rw [answered] at held
    cases held
  | some body =>
    have body_ordered := ordered document.1 body (contains_of_mem member) answered
    by_cases loaded : body.Loaded
    · left
      rw [verdict_loaded _ body_ordered loaded]
      refine ⟨fun other held => ?_, rfl⟩
      rw [answered] at held
      cases held
      exact loaded
    · right
      obtain ⟨location, blob, first, failed⟩ :=
        verdict_not_loaded snapshot.config body_ordered loaded
      rw [failed]
      exact ⟨body, location, blob, answered, loaded, first, rfl⟩

theorem loaded_of_silent (agrees : Agrees snapshot changes loader source)
    (ordered : HoldsOrdered snapshot source)
    {document : DocumentKey × Option Node} (member : document ∈ snapshot.documents.entries)
    (silent : (verdictOf snapshot source changes loader document).answer? = none) :
    HoldsLoaded source document.1 := by
  rcases answer_agreeing agrees ordered member with ⟨loaded, -⟩ | ⟨_, _, _, -, -, -, answer⟩
  · exact loaded
  · rw [silent] at answer
    cases answer

theorem agreeing_run_outcome (agrees : Agrees snapshot changes loader source)
    (ordered : HoldsOrdered snapshot source)
    (named : ∀ change ∈ changes, NamesRecorded snapshot change) :
    ((∀ key, snapshot.contains key = true → HoldsLoaded source key) ∧
      snapshot.verify source changes loader = .ok .success) ∨
    ∃ key body location blob, FirstNotLoaded snapshot source key body ∧
      FirstUnloaded body location blob ∧
      snapshot.verify source changes loader =
        .ok (missingBlob snapshot.config key body location blob) := by
  have without_fault : changes.findSome? (requestFault? snapshot) = none :=
    List.findSome?_eq_none_iff.mpr fun change member => named_without_fault (named change member)
  rw [run_outcome without_fault]
  cases outcome : snapshot.documents.entries.findSome? fun document =>
    (verdictOf snapshot source changes loader document).answer? with
  | none =>
    rw [List.findSome?_eq_none_iff] at outcome
    refine Or.inl ⟨fun key recorded => ?_, rfl⟩
    obtain ⟨document, member, rfl⟩ := mem_of_contains recorded
    exact loaded_of_silent agrees ordered member (outcome document member)
  | some answer =>
    right
    obtain ⟨before, document, after, split, here, silent⟩ :=
      List.findSome?_eq_some_iff.mp outcome
    have member : document ∈ snapshot.documents.entries := by simp [split]
    rcases answer_agreeing agrees ordered member with
      ⟨-, passed⟩ | ⟨body, location, blob, held, not_loaded, first, failed⟩
    · rw [here] at passed
      cases passed
    · rw [here] at failed
      refine ⟨document.1, body, location, blob,
        ⟨contains_of_mem member, held, not_loaded, ?_⟩, first, ?_⟩
      · intro other recorded precedes
        obtain ⟨earlier, earlier_member, rfl⟩ := mem_of_contains recorded
        -- a document before the first one at fault gave no answer, so it is loaded
        have before_it := mem_before split earlier_member precedes
        exact loaded_of_silent agrees ordered earlier_member (silent earlier before_it)
      · rw [Option.getD_some, Option.some.inj failed]

end agreeing

/-- An audit of a source that agrees with the changes, all of which name recorded documents, passes
    if every blob of the recorded documents is loaded there. If not, it fails for the first
    document, in the order of the keys, in which one is not, with the report that there is nothing
    to compare for the first such blob. -/
theorem honest_run_accepted {config : Config} {store : Store} (store_ordered : store.Ordered)
    {entries : List DocumentEntry} {snapshot : Snapshot} {outcome : Except AuditError Unit}
    (recorded : (Snapshot.empty config).recordAll store.source entries = (snapshot, outcome))
    {changes : List Change} (changes_ordered : ∀ change ∈ changes, change.Ordered)
    (named : ∀ change ∈ changes, NamesRecorded snapshot change) {loader : BlobLoader}
    {source : DocumentSource} (agrees : Agrees snapshot changes loader source) :
    ((∀ key, snapshot.contains key = true → HoldsLoaded source key) →
      snapshot.verify source changes loader = .ok .success) ∧
    (¬ (∀ key, snapshot.contains key = true → HoldsLoaded source key) →
      ∃ key body location blob, FirstNotLoaded snapshot source key body ∧
        FirstUnloaded body location blob ∧
        snapshot.verify source changes loader =
          .ok (missingBlob snapshot.config key body location blob)) := by
  have recorded_ordered : ∀ key body,
      snapshot.documents.find? key = some (some body) → body.Ordered := by
    intro key body found
    have answered := recorded_from_store recorded key (some body) found
    exact store_ordered key body (Except.ok.inj answered)
  have ordered := agreeing_ordered agrees recorded_ordered changes_ordered
  rcases agreeing_run_outcome agrees ordered named with ⟨loaded, success⟩ | failing
  · exact ⟨fun _ => success, fun not_loaded => absurd loaded not_loaded⟩
  · refine ⟨fun loaded => ?_, fun _ => failing⟩
    obtain ⟨key, body, _, _, first, -, -⟩ := failing
    exact absurd (loaded key first.recorded body first.held) first.not_loaded

def unloadedBody : Node := .dictionary [("f", .blob ⟨"text/plain", 1, "d", none⟩)]

/-- Of three documents one is updated, one is deleted, and one, which no change names, holds a blob
    of which only the metadata is known. -/
def storeBefore : Store :=
  ((Store.empty.save ⟨⟨"_default", "c"⟩, "a"⟩ (.dictionary [])).save
    ⟨⟨"_default", "c"⟩, "b"⟩ unloadedBody).save ⟨⟨"s", "c"⟩, "a"⟩ .null

def storeAfter : Store :=
  (Store.empty.save ⟨⟨"_default", "c"⟩, "a"⟩ (.dictionary [("x", .null)])).save
    ⟨⟨"_default", "c"⟩, "b"⟩ unloadedBody

def snapshotBefore : Snapshot :=
  ((Snapshot.empty .default).recordAll storeBefore.source
    [⟨"c", "b"⟩, ⟨"c", "a"⟩, ⟨"s.c", "a"⟩]).1

def changesBetween : List Change :=
  [(Change.new .update "c" "a").set "x" .null, Change.new .delete "s.c" "a"]

theorem known_by_metadata_only :
    ∃ location blob, FirstUnloaded unloadedBody location blob ∧
      snapshotBefore.verify storeAfter.source changesBetween BlobLoader.none =
        .ok (missingBlob .default ⟨⟨"_default", "c"⟩, "b"⟩ unloadedBody location blob) := by
  have recorded : (Snapshot.empty .default).recordAll storeBefore.source
      [⟨"c", "b"⟩, ⟨"c", "a"⟩, ⟨"s.c", "a"⟩] = (snapshotBefore, .ok ()) := rfl
  have documents : snapshotBefore.documents.entries =
      [(⟨⟨"_default", "c"⟩, "a"⟩, some (.dictionary [])),
        (⟨⟨"_default", "c"⟩, "b"⟩, some unloadedBody), (⟨⟨"s", "c"⟩, "a"⟩, some .null)] := rfl
  have store_ordered : storeBefore.Ordered := by
    refine Store.ordered_save (Store.ordered_save (Store.ordered_save Store.empty_ordered ?_) ?_) ?_
    all_goals simp [unloadedBody, Node.Ordered, Node.OrderedEntries, Entries.Ascending]
  have changes_ordered : ∀ change ∈ changesBetween, change.Ordered := by
    refine List.forall_mem_cons.mpr ⟨?_, List.forall_mem_singleton.mpr ?_⟩
    · intro batch member entry entry_member
      cases List.mem_singleton.mp member
      cases List.mem_singleton.mp entry_member
      trivial
    · intro batch member
      cases member
  have named : ∀ change ∈ changesBetween, NamesRecorded snapshotBefore change :=
    List.forall_mem_cons.mpr ⟨⟨⟨⟨"_default", "c"⟩, "a"⟩, rfl, rfl⟩,
      List.forall_mem_singleton.mpr ⟨⟨⟨"s", "c"⟩, "a"⟩, rfl, rfl⟩⟩
  have agrees : Agrees snapshotBefore changesBetween BlobLoader.none storeAfter.source := by
    intro key body found
    have member := Entries.mem_of_find found
    rw [documents] at member
    rcases member with _ | ⟨_, _ | ⟨_, _ | ⟨_, _ | _⟩⟩⟩
    · exact ⟨some (.dictionary [("x", .null)]), rfl, rfl⟩
    · exact ⟨some unloadedBody, rfl, rfl⟩
    · exact ⟨none, rfl, rfl⟩
  have not_loaded : ¬ unloadedBody.Loaded := by
    simp [unloadedBody, Node.Loaded, Node.LoadedEntries]
  obtain ⟨key, body, location, blob, first, unloaded, failed⟩ :=
    (honest_run_accepted store_ordered recorded changes_ordered named agrees).2 fun loaded =>
      not_loaded (loaded ⟨⟨"_default", "c"⟩, "b"⟩ rfl unloadedBody rfl)
  obtain ⟨document, member, rfl⟩ := mem_of_contains first.recorded
  have held := first.held
  rw [documents] at member
  rcases member with _ | ⟨_, _ | ⟨_, _ | ⟨_, _ | _⟩⟩⟩
  · cases held
    exact absurd ⟨trivial, trivial⟩ first.not_loaded
  · cases held
    exact ⟨location, blob, unloaded, failed⟩
  · cases held

end Audit
end DocAudit
