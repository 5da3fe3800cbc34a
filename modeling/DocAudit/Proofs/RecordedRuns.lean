import DocAudit.Proofs.CollectionNames
import DocAudit.Proofs.Tables

/- Runs in which the documents of a store are edited and, in between, recorded in a snapshot. What such
   a run records is a list of keys, each with the state that was recorded for it, and follows from
   the steps and from the store as each of them found it; the snapshot has no part in it. The
   snapshot in the end is that list made into a table, so of several recordings of one document it
   holds the last. -/
namespace DocAudit

structure Session where
  store : Store
  snapshot : Snapshot

namespace Session

inductive Step where
  | save (key : DocumentKey) (body : Node)
  | delete (key : DocumentKey)
  | purge (key : DocumentKey)
  | edit (key : DocumentKey) (change : Node → Node)
  | record (entry : DocumentEntry)
  | recordAll (entries : List DocumentEntry)
  | insert (key : DocumentKey) (body : Option Node)

def Step.storeAfter (store : Store) : Step → Store
  | .save key body => store.save key body
  | .delete key => (store.delete key).1
  | .purge key => (store.purge key).1
  | .edit key change => (store.edit key fun body => (change body, ())).1
  | .record _ => store
  | .recordAll _ => store
  | .insert _ _ => store

def Step.EditsStore : Step → Prop
  | .save _ _ => True
  | .delete _ => True
  | .purge _ => True
  | .edit _ _ => True
  | .record _ => False
  | .recordAll _ => False
  | .insert _ _ => False

def step (session : Session) : Step → Session × Except AuditError Unit
  | .record entry =>
    let (snapshot, outcome) := session.snapshot.record session.store.source entry
    (⟨session.store, snapshot⟩, outcome)
  | .recordAll entries =>
    let (snapshot, outcome) := session.snapshot.recordAll session.store.source entries
    (⟨session.store, snapshot⟩, outcome)
  | .insert key body => (⟨session.store, session.snapshot.insert key body⟩, .ok ())
  | edit => (⟨edit.storeAfter session.store, session.snapshot⟩, .ok ())

def run (session : Session) (steps : List Step) : Session :=
  steps.foldl (fun session step => (session.step step).1) session

/-- The key of an entry with what the store holds for it, if its collection is named properly. -/
def recording? (scope : String) (store : Store) (entry : DocumentEntry) :
    Option (DocumentKey × Option Node) :=
  match CollectionName.parseIn scope entry.collection with
  | .ok collection => some (⟨collection, entry.id⟩, store.find? ⟨collection, entry.id⟩)
  | .error _ => none

/-- A list of entries is recorded as far as every entry of it can be. -/
def Step.recordings (scope : String) (store : Store) : Step → List (DocumentKey × Option Node)
  | .record entry => (recording? scope store entry).toList
  | .recordAll entries =>
    ((entries.map (recording? scope store)).takeWhile Option.isSome).reduceOption
  | .insert key body => [(key, body)]
  | _ => []

def history (scope : String) : Store → List Step → List (DocumentKey × Option Node)
  | _, [] => []
  | store, step :: rest =>
    step.recordings scope store ++ history scope (step.storeAfter store) rest

section record
variable {snapshot : Snapshot} {store : Store} {entry : DocumentEntry}

theorem record_done {recording : DocumentKey × Option Node}
    (named : recording? snapshot.config.defaultScope store entry = some recording) :
    snapshot.record store.source entry =
      (snapshot.insert recording.1 recording.2, .ok ()) := by
  unfold recording? at named
  unfold Snapshot.record
  cases parsed : CollectionName.parseIn snapshot.config.defaultScope entry.collection with
  | error error => simp [parsed] at named
  | ok collection =>
    simp only [parsed, Option.some.injEq] at named
    subst named
    rfl

theorem record_refused (unnamed : recording? snapshot.config.defaultScope store entry = none) :
    ∃ error, snapshot.record store.source entry = (snapshot, .error error) := by
  unfold recording? at unnamed
  unfold Snapshot.record
  cases parsed : CollectionName.parseIn snapshot.config.defaultScope entry.collection with
  | error error => exact ⟨.invalidCollection error, rfl⟩
  | ok collection => simp [parsed] at unnamed

end record

def inserted (snapshot : Snapshot) (recordings : List (DocumentKey × Option Node)) : Snapshot :=
  ⟨snapshot.config,
    recordings.foldl (fun table entry => table.insert entry.1 entry.2) snapshot.documents⟩

theorem inserted_append (snapshot : Snapshot)
    (earlier later : List (DocumentKey × Option Node)) :
    inserted snapshot (earlier ++ later) = inserted (inserted snapshot earlier) later := by
  rw [inserted, List.foldl_append]
  rfl

theorem record_all_inserted (snapshot : Snapshot) (store : Store) (entries : List DocumentEntry) :
    (snapshot.recordAll store.source entries).1 =
      inserted snapshot
        ((Step.recordAll entries).recordings snapshot.config.defaultScope store) := by
  induction entries generalizing snapshot with
  | nil => rfl
  | cons entry rest ih =>
    simp only [Step.recordings, List.map_cons] at ih ⊢
    unfold Snapshot.recordAll
    cases named : recording? snapshot.config.defaultScope store entry with
    | none =>
      obtain ⟨error, refused⟩ := record_refused named
      rw [refused]
      rfl
    | some recording =>
      rw [record_done named]
      exact ih (snapshot.insert recording.1 recording.2)

theorem step_snapshot (session : Session) (step : Step) :
    (session.step step).1.snapshot =
      inserted session.snapshot
        (step.recordings session.snapshot.config.defaultScope session.store) := by
  cases step with
  | record entry =>
    simp only [Session.step, Step.recordings]
    cases named : recording? session.snapshot.config.defaultScope session.store entry with
    | none =>
      obtain ⟨error, refused⟩ := record_refused named
      rw [refused]
      rfl
    | some recording =>
      rw [record_done named]
      rfl
  | recordAll entries => exact record_all_inserted session.snapshot session.store entries
  | insert key body => rfl
  | save key body => rfl
  | delete key => rfl
  | purge key => rfl
  | edit key change => rfl

theorem step_store (session : Session) (step : Step) :
    (session.step step).1.store = step.storeAfter session.store := by
  cases step <;> rfl

theorem run_snapshot (session : Session) (steps : List Step) :
    (session.run steps).snapshot =
      inserted session.snapshot
        (history session.snapshot.config.defaultScope session.store steps) := by
  induction steps generalizing session with
  | nil => rfl
  | cons step rest ih =>
    rw [history, inserted_append, ← step_snapshot, ← step_store]
    have same_scope : (session.step step).1.snapshot.config = session.snapshot.config := by
      rw [step_snapshot]
      rfl
    -- the rest of the run reads names under the same default scope
    rw [← same_scope]
    exact ih (session.step step).1

theorem run_documents (config : Config) (store : Store) (steps : List Step) :
    (run ⟨store, Snapshot.empty config⟩ steps).snapshot.documents =
      Table.ofList (history config.defaultScope store steps) := by
  rw [run_snapshot]
  rfl

theorem store_edit_snapshot {session : Session} {step : Step} (edits : step.EditsStore) :
    (session.step step).1.snapshot = session.snapshot := by
  cases step <;> first | rfl | exact edits.elim

theorem store_edits_snapshot {session : Session} {steps : List Step}
    (edits : ∀ step ∈ steps, step.EditsStore) :
    (session.run steps).snapshot = session.snapshot := by
  induction steps generalizing session with
  | nil => rfl
  | cons step rest ih =>
    obtain ⟨here, later⟩ := List.forall_mem_cons.mp edits
    exact (ih later).trans (store_edit_snapshot here)

theorem record_outcome (session : Session) (entry : DocumentEntry) :
    (session.step (.record entry)).2 =
      match CollectionName.parseIn session.snapshot.config.defaultScope entry.collection with
      | .ok _ => .ok ()
      | .error error => .error (.invalidCollection error) := by
  simp only [step, Snapshot.record]
  cases CollectionName.parseIn session.snapshot.config.defaultScope entry.collection <;> rfl

theorem record_succeeds_iff (session : Session) (entry : DocumentEntry) :
    (session.step (.record entry)).2 = .ok () ↔
      (recording? session.snapshot.config.defaultScope session.store entry).isSome := by
  rw [record_outcome, recording?]
  cases CollectionName.parseIn session.snapshot.config.defaultScope entry.collection <;> simp

theorem refused_record_keeps {session : Session} {entry : DocumentEntry} {error : AuditError}
    (refused : (session.step (.record entry)).2 = .error error) :
    (session.step (.record entry)).1 = session := by
  simp only [step] at refused ⊢
  cases named : recording? session.snapshot.config.defaultScope session.store entry with
  | none =>
    obtain ⟨error, unchanged⟩ := record_refused named
    rw [unchanged]
  | some recording =>
    rw [record_done named] at refused
    cases refused

theorem step_record_all_cons (session : Session) (entry : DocumentEntry)
    (rest : List DocumentEntry) :
    session.step (.recordAll (entry :: rest)) =
      match session.step (.record entry) with
      | (next, .ok ()) => next.step (.recordAll rest)
      | (next, .error error) => (next, .error error) := by
  simp only [step, Snapshot.recordAll]
  rcases session.snapshot.record session.store.source entry with ⟨next, error | done⟩ <;> rfl

theorem record_outcome_after (session : Session) (entry other : DocumentEntry) :
    ((session.step (.record entry)).1.step (.record other)).2 =
      (session.step (.record other)).2 := by
  rw [record_outcome, record_outcome, step_snapshot]
  rfl

theorem refused_record_all {session : Session} {entries : List DocumentEntry} {error : AuditError}
    (refused : (session.step (.recordAll entries)).2 = .error error) :
    ∃ before failing after, entries = before ++ failing :: after ∧
      (∀ entry ∈ before, (session.step (.record entry)).2 = .ok ()) ∧
      (session.step (.record failing)).2 = .error error ∧
      (session.step (.recordAll entries)).1 = session.run (before.map .record) := by
  induction entries generalizing session with
  | nil => cases refused
  | cons entry rest ih =>
    have others := record_outcome_after session entry
    rw [step_record_all_cons] at refused ⊢
    rcases recorded : session.step (.record entry) with ⟨next, other | done⟩ <;>
      simp only [recorded] at refused others ⊢
    -- the first entry is at fault, and nothing was recorded before it
    · have failed : (session.step (.record entry)).2 = .error error := by
        rw [recorded]
        exact refused
      have unchanged := refused_record_keeps failed
      rw [recorded] at unchanged
      exact ⟨[], entry, rest, rfl, by simp, failed, unchanged⟩
    · obtain ⟨before, failing, after, split, all_done, failed, left⟩ := ih refused
      refine ⟨entry :: before, failing, after, by rw [split, List.cons_append], ?_, ?_, ?_⟩
      · refine List.forall_mem_cons.mpr ⟨by rw [recorded], fun other member => ?_⟩
        exact (others other).symm.trans (all_done other member)
      · exact (others failing).symm.trans failed
      · rw [left, List.map_cons, run, run, List.foldl_cons, recorded]

/-- The answers of a snapshot after a run: the state last recorded for a key, as the store held it
    at that time, and an error for a key without a record. A name without a scope and the name with
    the default scope before it make the same key. A refused record changes nothing, and a refused
    list of records has been recorded up to its first entry at fault. -/
theorem snapshot_holds_last_recordings {config : Config} {blank : Snapshot}
    (made : Snapshot.withConfig config = .ok blank) (store : Store) (steps : List Step) :
    (∀ key, (run ⟨store, blank⟩ steps).snapshot.get key = .error (.unknownKey key) ↔
      key ∉ Entries.keys (history config.defaultScope store steps)) ∧
    (∀ key state, (run ⟨store, blank⟩ steps).snapshot.get key = .ok state ↔
      Entries.last? key (history config.defaultScope store steps) = some state) ∧
    (∀ edits : List Step, (∀ edit ∈ edits, edit.EditsStore) →
      (run ⟨store, blank⟩ (steps ++ edits)).snapshot = (run ⟨store, blank⟩ steps).snapshot) ∧
    (run ⟨store, blank⟩ steps).snapshot.size =
      (Entries.keys (history config.defaultScope store steps)).dedup.length ∧
    (∀ now name id, name ≠ "" → CollectionName.separator ∉ name.toList →
      recording? config.defaultScope now ⟨name, id⟩ =
        some (⟨⟨config.defaultScope, name⟩, id⟩, now.find? ⟨⟨config.defaultScope, name⟩, id⟩) ∧
      recording? config.defaultScope now ⟨config.defaultScope ++ "." ++ name, id⟩ =
        recording? config.defaultScope now ⟨name, id⟩) ∧
    (∀ entry, ((run ⟨store, blank⟩ steps).step (.record entry)).2 = .ok () ↔
      (recording? config.defaultScope (run ⟨store, blank⟩ steps).store entry).isSome) ∧
    (∀ entry error, ((run ⟨store, blank⟩ steps).step (.record entry)).2 = .error error →
      ((run ⟨store, blank⟩ steps).step (.record entry)).1 = run ⟨store, blank⟩ steps) ∧
    ∀ entries error, ((run ⟨store, blank⟩ steps).step (.recordAll entries)).2 = .error error →
      ∃ before failing after, entries = before ++ failing :: after ∧
        (∀ entry ∈ before, ((run ⟨store, blank⟩ steps).step (.record entry)).2 = .ok ()) ∧
        ((run ⟨store, blank⟩ steps).step (.record failing)).2 = .error error ∧
        ((run ⟨store, blank⟩ steps).step (.recordAll entries)).1 =
          (run ⟨store, blank⟩ steps).run (before.map .record) := by
  obtain ⟨valid, rfl⟩ := with_config_valid made
  obtain ⟨scope_named, scope_free⟩ := valid_scope valid
  have documents := run_documents config store steps
  have scope : (run ⟨store, Snapshot.empty config⟩ steps).snapshot.config = config := by
    rw [run_snapshot]
    rfl
  have found (key : DocumentKey) :
      (run ⟨store, Snapshot.empty config⟩ steps).snapshot.documents.find? key =
        Entries.last? key (history config.defaultScope store steps) := by
    rw [documents, Table.find_of_list]
  refine ⟨fun key => ?unknown, fun key state => ?known, fun edits on_store => ?edited, ?size,
    fun now name id named free => ?names, fun entry => ?recorded, fun _ _ => refused_record_keeps,
    fun _ _ => refused_record_all⟩
  case unknown =>
    rw [← Entries.last_none_iff, Snapshot.get, found]
    cases Entries.last? key (history config.defaultScope store steps) <;> simp
  case known =>
    rw [Snapshot.get, found]
    cases Entries.last? key (history config.defaultScope store steps) <;> simp
  case edited =>
    rw [run, List.foldl_append]
    exact store_edits_snapshot on_store
  case size => rw [Snapshot.size, documents, Table.size_of_list]
  case names =>
    have bare := CollectionName.parse_bare scope_named named free
    have full : CollectionName.parseIn config.defaultScope (config.defaultScope ++ "." ++ name) =
        .ok ⟨config.defaultScope, name⟩ :=
      CollectionName.parse_text config.defaultScope scope_named named scope_free free
    exact ⟨by rw [recording?, bare], by rw [recording?, recording?, bare, full]⟩
  case recorded => rw [record_succeeds_iff, scope]

/- A document is recorded, edited, recorded again under its full name, deleted, and recorded once
   more as absent; another one is edited after its only record. A list of records ends at a name
   with too many parts. -/
def recordedAgain : List Step :=
  [.save ⟨⟨"_default", "c"⟩, "a"⟩ .null, .record ⟨"c", "a"⟩,
    .edit ⟨⟨"_default", "c"⟩, "a"⟩ fun body => .array [body], .record ⟨"_default.c", "a"⟩,
    .save ⟨⟨"s", "c"⟩, "a"⟩ .null, .delete ⟨⟨"_default", "c"⟩, "a"⟩, .record ⟨"c", "a"⟩,
    .recordAll [⟨"s.c", "a"⟩, ⟨"s.c.d", "a"⟩, ⟨"c", "b"⟩], .purge ⟨⟨"s", "c"⟩, "a"⟩]

theorem later_state_and_absence :
    Snapshot.withConfig .default = .ok (Snapshot.empty .default) ∧
    (run ⟨Store.empty, Snapshot.empty .default⟩ (recordedAgain.take 6)).snapshot.get
      ⟨⟨"_default", "c"⟩, "a"⟩ = .ok (some (.array [.null])) ∧
    (run ⟨Store.empty, Snapshot.empty .default⟩ recordedAgain).snapshot.get
      ⟨⟨"_default", "c"⟩, "a"⟩ = .ok none ∧
    (run ⟨Store.empty, Snapshot.empty .default⟩ recordedAgain).snapshot.get ⟨⟨"s", "c"⟩, "a"⟩ =
      .ok (some .null) ∧
    (run ⟨Store.empty, Snapshot.empty .default⟩ recordedAgain).snapshot.get
      ⟨⟨"_default", "c"⟩, "b"⟩ = .error (.unknownKey ⟨⟨"_default", "c"⟩, "b"⟩) ∧
    (run ⟨Store.empty, Snapshot.empty .default⟩ recordedAgain).snapshot.size = 2 ∧
    ((run ⟨Store.empty, Snapshot.empty .default⟩ recordedAgain).step
      (.record ⟨"c", "b"⟩)).2 = .ok () := by
  have past : history Config.default.defaultScope Store.empty recordedAgain =
      [(⟨⟨"_default", "c"⟩, "a"⟩, some .null), (⟨⟨"_default", "c"⟩, "a"⟩, some (.array [.null])),
        (⟨⟨"_default", "c"⟩, "a"⟩, none), (⟨⟨"s", "c"⟩, "a"⟩, some .null)] := rfl
  have before_deletion : history Config.default.defaultScope Store.empty (recordedAgain.take 6) =
      [(⟨⟨"_default", "c"⟩, "a"⟩, some .null),
        (⟨⟨"_default", "c"⟩, "a"⟩, some (.array [.null]))] := rfl
  have made : Snapshot.withConfig .default = .ok (Snapshot.empty .default) := rfl
  obtain ⟨-, earlier, -⟩ :=
    snapshot_holds_last_recordings made Store.empty (recordedAgain.take 6)
  obtain ⟨unknown, known, -, size, -, recorded, -⟩ :=
    snapshot_holds_last_recordings made Store.empty recordedAgain
  rw [before_deletion] at earlier
  rw [past] at unknown known size
  exact ⟨made, (earlier _ _).mpr rfl, (known _ _).mpr rfl, (known _ _).mpr rfl,
    (unknown _).mpr (by decide), size, (recorded _).mpr rfl⟩

end Session
end DocAudit
