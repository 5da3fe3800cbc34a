import DocAudit.Proofs.Tables
import DocAudit.Proofs.Verdict

/- Requests put one after the other to a path cache that was empty at first. Of such a cache it is
   known what it finds for every text: the path that was read, if the text was asked for and could
   be read. Each answer is therefore that of a fresh reading, and the size of the cache counts the
   different texts that could be read. A replay puts further requests, so an audit, in which all
   documents share one cache, never leaves these caches, and ends like an audit that takes a new
   cache for every document. -/
namespace DocAudit

def KeyPath.isReadable (written : String) : Bool := (KeyPath.parse written).isOk

namespace PathCache

def after (cache : PathCache) (requests : List String) : PathCache :=
  requests.foldl (fun cache written => (cache.path written).2) cache

def answers (cache : PathCache) : List String → List (Except KeyPath.ParseError KeyPath)
  | [] => []
  | written :: rest => (cache.path written).1 :: answers (cache.path written).2 rest

variable {cache : PathCache}

theorem after_append (cache : PathCache) (requests more : List String) :
    cache.after (requests ++ more) = (cache.after requests).after more :=
  List.foldl_append

theorem after_sound (sound : cache.Sound) (requests : List String) :
    (cache.after requests).Sound := by
  induction requests generalizing cache with
  | nil => exact sound
  | cons written rest ih => exact ih (path_keeps_sound sound written)

theorem answers_fresh (sound : cache.Sound) (requests : List String) :
    cache.answers requests = requests.map KeyPath.parse := by
  induction requests generalizing cache with
  | nil => rfl
  | cons written rest ih =>
    rw [answers, path_read sound, ih (path_keeps_sound sound written), List.map_cons]

theorem refused_keeps {written : String} {error : KeyPath.ParseError}
    (refused : (cache.path written).1 = .error error) : (cache.path written).2 = cache := by
  unfold path at refused ⊢
  cases found : cache.paths.find? written with
  | some path => rfl
  | none =>
    cases parsed : KeyPath.parse written with
    | error error => rfl
    | ok path => simp [found, parsed] at refused

theorem contains_after_path (sound : cache.Sound) (written probe : String) :
    (cache.path written).2.paths.contains probe = true ↔
      (probe = written ∧ KeyPath.isReadable written = true) ∨
        cache.paths.contains probe = true := by
  unfold path KeyPath.isReadable
  cases found : cache.paths.find? written with
  | some path =>
    have readable : KeyPath.parse written = .ok path := sound written path found
    have here : cache.paths.contains written = true := by rw [Table.contains, found]; rfl
    simp only [readable, Except.isOk, Except.toBool, and_true]
    exact ⟨.inr, fun either => either.elim (fun same => same ▸ here) id⟩
  | none =>
    cases parsed : KeyPath.parse written with
    | error error => simp [Except.isOk, Except.toBool]
    | ok path =>
      simp only [Table.contains, Table.find_after_insert, Except.isOk, Except.toBool, and_true]
      split
      next same => simp [same]
      next differ => simp [differ]

theorem contains_after (sound : cache.Sound) (requests : List String) (probe : String) :
    (cache.after requests).paths.contains probe = true ↔
      probe ∈ requests.filter KeyPath.isReadable ∨ cache.paths.contains probe = true := by
  induction requests generalizing cache with
  | nil => simp [after]
  | cons written rest ih =>
    refine (ih (path_keeps_sound sound written)).trans ?_
    rw [contains_after_path sound, List.mem_filter, List.mem_filter, List.mem_cons]
    constructor
    · rintro (⟨later, readable⟩ | ⟨rfl, readable⟩ | kept)
      · exact .inl ⟨.inr later, readable⟩
      · exact .inl ⟨.inl rfl, readable⟩
      · exact .inr kept
    · rintro (⟨rfl | later, readable⟩ | kept)
      · exact .inr (.inl ⟨rfl, readable⟩)
      · exact .inl ⟨later, readable⟩
      · exact .inr (.inr kept)

theorem size_after (requests : List String) :
    (empty.after requests).size = (requests.filter KeyPath.isReadable).dedup.length := by
  refine Table.size_of_keys fun written => (contains_after empty_sound requests written).trans ?_
  simp [empty, Table.contains, Table.find_empty]

end PathCache

namespace Replay

theorem edit_at_requests {α : Type} (cache : PathCache) (path : String)
    (edit : KeyPath → Node × Except EditError α) :
    (editAt cache path edit).2 = cache.after [path] := by
  show _ = (cache.path path).2
  unfold editAt
  rcases cache.path path with ⟨_ | parsed, next⟩
  · rfl
  · dsimp only
    rcases edit parsed with ⟨body, _ | _⟩ <;> rfl

theorem step_requests (loader : BlobLoader) (cache : PathCache) (body : Node)
    (first : ReplayStep) :
    ∃ requests, (step loader cache body first).2 = cache.after requests := by
  cases first with
  | set path value =>
    rw [step, write_at_edits]
    exact ⟨[path], edit_at_requests cache path _⟩
  | remove path =>
    rw [step, remove_at_edits]
    exact ⟨[path], edit_at_requests cache path _⟩
  | putBlob path reference =>
    simp only [step]
    cases loader reference with
    | error error => exact ⟨[], rfl⟩
    | ok blob =>
      dsimp only
      rw [write_at_edits]
      exact ⟨[path], edit_at_requests cache path _⟩

theorem run_requests (loader : BlobLoader) (cache : PathCache) (body : Node)
    (steps : List ReplayStep) :
    ∃ requests, (run loader cache body steps).2 = cache.after requests := by
  induction steps generalizing cache body with
  | nil => exact ⟨[], rfl⟩
  | cons first rest ih =>
    obtain ⟨requests, asked⟩ := step_requests loader cache body first
    simp only [run]
    rcases taken : step loader cache body first with ⟨_ | next_body, next⟩ <;>
      rw [taken] at asked
    · exact ⟨requests, asked⟩
    · obtain ⟨more, asked_later⟩ := ih next next_body
      refine ⟨requests ++ more, ?_⟩
      rw [PathCache.after_append, ← asked]
      exact asked_later

end Replay

namespace Audit

/-- The walk over the documents with a new cache for each of them. -/
def documentsAnew (config : Config) (changes : Table DocumentKey Change) (source : DocumentSource)
    (loader : BlobLoader) : List (DocumentKey × Option Node) → Trail
  | [] => ⟨[], .ok .success⟩
  | (key, recorded) :: rest =>
    let change := changes.find? key
    match (expectedBody loader .empty recorded change).1 with
    | .error error => ⟨[], .error error⟩
    | .ok expected =>
      match source key with
      | .error error => ⟨[key], .error error⟩
      | .ok actual =>
        match check config.includeDocument key (change.map Change.kind) expected actual with
        | some response => ⟨[key], .ok response⟩
        | none => (documentsAnew config changes source loader rest).after key

def runAnew (snapshot : Snapshot) (source : DocumentSource) (changes : List Change)
    (loader : BlobLoader) : Trail :=
  match lastChanges snapshot Table.empty changes with
  | .error error => ⟨[], .error error⟩
  | .ok named => documentsAnew snapshot.config named source loader snapshot.documents.entries

theorem audit_documents_anew {cache : PathCache} (sound : cache.Sound) (config : Config)
    (changes : Table DocumentKey Change) (source : DocumentSource) (loader : BlobLoader)
    (documents : List (DocumentKey × Option Node)) :
    auditDocuments config changes source loader cache documents =
      documentsAnew config changes source loader documents := by
  induction documents generalizing cache with
  | nil => rfl
  | cons document rest ih =>
    obtain ⟨key, recorded⟩ := document
    obtain ⟨claimed, kept⟩ := expected_body_claimed sound loader recorded (changes.find? key)
    have fresh := (expected_body_claimed PathCache.empty_sound loader recorded (changes.find? key)).1
    simp only [auditDocuments, documentsAnew]
    rw [fresh, ← claimed]
    rcases taken : expectedBody loader cache recorded (changes.find? key) with ⟨_ | expected, next⟩
    · rfl
    · rw [taken] at kept
      dsimp only
      cases source key with
      | error error => rfl
      | ok actual =>
        dsimp only
        cases check config.includeDocument key ((changes.find? key).map Change.kind) expected
          actual with
        | some response => rfl
        | none => exact congrArg (Trail.after key) (ih kept)

theorem run_anew (snapshot : Snapshot) (source : DocumentSource) (changes : List Change)
    (loader : BlobLoader) :
    run snapshot source changes loader = runAnew snapshot source changes loader := by
  unfold run runAnew
  cases lastChanges snapshot Table.empty changes with
  | error error => rfl
  | ok named => exact audit_documents_anew PathCache.empty_sound _ _ _ _ _

end Audit

/-- Nothing shows that paths are kept: every request is answered like a fresh reading of its text,
    and an audit with one cache for all its documents ends like an audit with a new cache for each,
    after the same look-ups. -/
theorem cache_invisible :
    (∀ requests, PathCache.empty.answers requests = requests.map KeyPath.parse) ∧
    (∀ requests written error,
      ((PathCache.empty.after requests).path written).1 = .error error →
        ((PathCache.empty.after requests).path written).2 = PathCache.empty.after requests) ∧
    (∀ requests, (PathCache.empty.after requests).size =
      (requests.filter KeyPath.isReadable).dedup.length) ∧
    (∀ requests (change : Change) loader body,
      (change.apply loader (PathCache.empty.after requests) body).1 =
        (change.apply loader .empty body).1 ∧
      ∃ more, (change.apply loader (PathCache.empty.after requests) body).2 =
        PathCache.empty.after (requests ++ more)) ∧
    ∀ snapshot source changes loader,
      Audit.run snapshot source changes loader = Audit.runAnew snapshot source changes loader := by
  refine ⟨PathCache.answers_fresh PathCache.empty_sound, fun _ _ _ => PathCache.refused_keeps,
    PathCache.size_after, fun requests change loader body => ⟨?_, ?_⟩, Audit.run_anew⟩
  · exact (apply_from_sound (PathCache.after_sound PathCache.empty_sound requests) change loader
      body).1
  · obtain ⟨more, asked⟩ :=
      Replay.run_requests loader (PathCache.empty.after requests) body change.steps
    exact ⟨more, asked.trans (PathCache.after_append _ _ _).symm⟩

theorem kept_and_refused_texts :
    ((PathCache.empty.after ["a.b", "a..b", "a.b"]).path "a..b").1 =
        .error ⟨"a..b", 2, .emptyProperty⟩ ∧
      ((PathCache.empty.after ["a.b", "a..b", "a.b"]).path "a..b").2 =
        PathCache.empty.after ["a.b", "a..b", "a.b"] ∧
      (PathCache.empty.after ["a.b", "a..b", "a.b"]).size = 1 := by
  have refused : ((PathCache.empty.after ["a.b", "a..b", "a.b"]).path "a..b").1 =
      .error ⟨"a..b", 2, .emptyProperty⟩ := rfl
  refine ⟨refused, cache_invisible.2.1 _ _ _ refused, ?_⟩
  rw [cache_invisible.2.2.1]
  decide

end DocAudit
