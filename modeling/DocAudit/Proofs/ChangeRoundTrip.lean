import DocAudit.Change.Json
import DocAudit.Proofs.JsonRoundTrip
import DocAudit.Proofs.Tables

/- A change that is written as JSON and read again. Parts that are empty are left out and are read as
   empty, so no batch and one empty batch are told apart; a batch is an object of its own and never
   taken for blob metadata, only the values in it are read as nodes. So nothing about a change is
   lost but what its values lose when they are written. -/
namespace DocAudit

theorem map_same_iff {α : Type} (f : α → α) (list : List α) :
    list.map f = list ↔ ∀ a ∈ list, f a = a := by
  have pointwise := List.map_inj_left (l := list) (f := f) (g := id)
  rwa [List.map_id] at pointwise

namespace Table
variable {κ α β : Type} [Ord κ]

def map (f : α → β) (table : Table κ α) : Table κ β where
  entries := table.entries.map fun entry => (entry.1, f entry.2)
  ascending := by
    rw [Entries.Ascending, List.pairwise_map]
    exact table.ascending

theorem map_unchanged_iff (f : α → α) (table : Table κ α) :
    table.map f = table ↔ ∀ entry ∈ table.entries, f entry.2 = entry.2 := by
  rw [Table.ext_iff, map, map_same_iff]
  exact forall₂_congr fun entry _ => ⟨congrArg Prod.snd, fun same => by rw [same]⟩

variable [DecidableEq κ] [Std.TransOrd κ] [Std.LawfulEqOrd κ]

theorem of_list_entries (table : Table κ α) : ofList table.entries = table := by
  apply Table.ext
  refine Entries.ascending_ext (ofList table.entries).ascending table.ascending fun key => ?_
  rw [entries_of_list, Entries.find_of_list, Entries.last_of_ascending table.ascending]

end Table

namespace Change

def reread (value : Node) : Node := .ofJson value.toJson

def mapValues (f : Node → Node) (change : Change) : Change :=
  { change with updates := change.updates.map (Table.map f) }

def Sets (change : Change) (value : Node) : Prop :=
  ∃ batch ∈ change.updates, ∃ path, (path, value) ∈ batch.entries

theorem kind_read_again (kind : ChangeKind) :
    ChangeKind.ofJson? (.string kind.wireName) = some kind := by
  cases kind <;> rfl

theorem all_read_again {α β γ : Type} {encode : α → γ} {decode : γ → Option β} {f : α → β}
    (read : ∀ a, decode (encode a) = some (f a)) (list : List α) :
    (list.map encode).mapM decode = some (list.map f) := by
  rw [List.mapM_map, show decode ∘ encode = fun a => pure (f a) from funext read]
  exact List.mapM_pure

theorem all_read_back {α γ : Type} {encode : α → γ} {decode : γ → Option α}
    (read : ∀ a, decode (encode a) = some a) (list : List α) :
    (list.map encode).mapM decode = some list := by
  rw [all_read_again read, List.map_id']

theorem entries_read_again (entries : List (String × Node)) :
    Node.entriesOfJson (Node.entriesToJson entries) =
      entries.map fun entry => (entry.1, reread entry.2) := by
  induction entries with
  | nil => rfl
  | cons entry rest ih =>
    rw [Node.entriesToJson, Node.entriesOfJson, ih]
    rfl

theorem batch_read_again (batch : Table String Node) :
    batchOfJson? (batchToJson batch) = some (batch.map reread) := by
  have made := Table.of_list_entries (batch.map reread)
  rw [batchOfJson?, batchToJson, Json.object?, Option.map_some, entries_read_again]
  exact congrArg some made

theorem updates_read_again (updates : List (Table String Node)) :
    updatesOfJson? (.array (updates.map batchToJson)) = some (updates.map (Table.map reread)) :=
  all_read_again batch_read_again updates

theorem removals_read_again (removals : List String) :
    removalsOfJson? (.array (removals.map .string)) = some removals := by
  have read (path : String) : Json.string? (.string path) = some path := rfl
  exact all_read_back read removals

theorem blobs_read_again (blobs : Table String String) :
    blobsOfJson? (blobsToJson blobs) = some blobs := by
  have entries_read :
      (blobs.entries.map fun entry => (entry.1, Json.string entry.2)).mapM
        (fun member => member.2.string?.map fun r => (member.1, r)) = some blobs.entries := by
    apply all_read_back
    intro entry
    rfl
  simp only [blobsOfJson?, blobsToJson, Json.object?, Option.bind_eq_bind, Option.bind_some,
    entries_read, Table.of_list_entries]
  rfl

theorem last_unless_empty {α : Type} (name : String) (list : List α) (json : Json)
    (key : String) :
    Entries.last? key (unlessEmpty name list json) =
      if name = key ∧ list ≠ [] then some json else none := by
  cases list with
  | nil => simp [unlessEmpty, Entries.last?]
  | cons a rest => simp [unlessEmpty, Entries.last_single]

def writtenFields (change : Change) : List (String × Json) :=
  [("type", .string change.kind.wireName), ("collection", .string change.collection),
    ("documentID", .string change.documentId)] ++
    unlessEmpty "updatedProperties" change.updates (.array (change.updates.map batchToJson)) ++
    unlessEmpty "removedProperties" change.removals (.array (change.removals.map .string)) ++
    unlessEmpty "updatedBlobs" change.blobs.entries (blobsToJson change.blobs)

theorem find_written (change : Change) :
    Entries.find? "type" (Entries.ofList change.writtenFields) =
      some (.string change.kind.wireName) ∧
    Entries.find? "collection" (Entries.ofList change.writtenFields) =
      some (.string change.collection) ∧
    Entries.find? "documentID" (Entries.ofList change.writtenFields) =
      some (.string change.documentId) ∧
    Entries.find? "updatedProperties" (Entries.ofList change.writtenFields) =
      (if change.updates ≠ [] then some (.array (change.updates.map batchToJson)) else none) ∧
    Entries.find? "removedProperties" (Entries.ofList change.writtenFields) =
      (if change.removals ≠ [] then some (.array (change.removals.map .string)) else none) ∧
    Entries.find? "updatedBlobs" (Entries.ofList change.writtenFields) =
      (if change.blobs.entries ≠ [] then some (blobsToJson change.blobs) else none) := by
  simp [Entries.find_of_list, writtenFields, Entries.last_cons, Entries.last_append,
    last_unless_empty]

theorem defaulted_unless_empty {α β : Type} {decode : Json → Option α} {name : String}
    {missing value : α} {members : List (String × Json)} {list : List β} {json : Json}
    (found : Entries.find? name members = if list ≠ [] then some json else none)
    (read : decode json = some value) (left_out : list = [] → value = missing) :
    Json.defaulted? decode name missing members = some value := by
  rw [Json.defaulted?, found]
  by_cases empty : list = []
  · rw [if_neg (not_not_intro empty), left_out empty]
  · rw [if_pos empty]
    exact read

theorem read_again (change : Change) :
    ofJson? change.toJson = some (change.mapValues reread) := by
  obtain ⟨kind, collection, documentId, updates, removals, blobs⟩ := find_written change
  have written : change.toJson = .object (Entries.ofList change.writtenFields) := rfl
  have updates_read := defaulted_unless_empty updates (updates_read_again change.updates)
    fun empty => by rw [empty, List.map_nil]
  have removals_read := defaulted_unless_empty removals (removals_read_again change.removals)
    fun empty => empty
  have blobs_read := defaulted_unless_empty blobs (blobs_read_again change.blobs)
    fun empty => Table.ext (y := Table.empty) empty
  simp only [written, ofJson?, Json.record?, Json.required?, kind, collection, documentId,
    updates_read, removals_read, blobs_read, Option.bind_eq_bind, Option.bind_some,
    kind_read_again, Json.string?]
  rfl

section
variable (f : Node → Node) (change : Change)

theorem every_value_iff (holds : Node → Prop) :
    (∀ value, change.Sets value → holds value) ↔
      ∀ batch ∈ change.updates, ∀ entry ∈ batch.entries, holds entry.2 := by
  constructor
  · intro every batch batch_member entry member
    exact every entry.2 ⟨batch, batch_member, entry.1, member⟩
  · rintro every value ⟨batch, batch_member, path, member⟩
    exact every batch batch_member (path, value) member

theorem map_values_unchanged_iff :
    change.mapValues f = change ↔ ∀ value, change.Sets value → f value = value := by
  obtain ⟨kind, collection, documentId, updates, removals, blobs⟩ := change
  rw [every_value_iff]
  simp only [mapValues, mk.injEq, true_and, and_true]
  rw [map_same_iff]
  exact forall₂_congr fun batch _ => batch.map_unchanged_iff f

theorem map_entries_identical_iff (entries : List (String × Node)) :
    Node.identicalEntries (entries.map fun entry => (entry.1, f entry.2)) entries = true ↔
      ∀ entry ∈ entries, (f entry.2).identical entry.2 = true := by
  induction entries with
  | nil => simp [Node.identicalEntries]
  | cons entry rest ih => simp [Node.identicalEntries, ih]

theorem map_batches_identical_iff (updates : List (Table String Node)) :
    identicalBatches (updates.map (Table.map f)) updates = true ↔
      ∀ batch ∈ updates, ∀ entry ∈ batch.entries, (f entry.2).identical entry.2 = true := by
  induction updates with
  | nil => simp [identicalBatches]
  | cons batch rest ih =>
    rw [List.map_cons, identicalBatches, Bool.and_eq_true, ih, List.forall_mem_cons]
    exact and_congr_left' (map_entries_identical_iff f batch.entries)

theorem map_values_identical_iff :
    (change.mapValues f).identical change = true ↔
      ∀ value, change.Sets value → (f value).identical value = true := by
  rw [every_value_iff change fun value => (f value).identical value = true,
    ← map_batches_identical_iff]
  simp [identical, mapValues]

end

/-- Every change is read again with all its parts in their order; only the values are what a node is
    read as where it was written. So the change is read as itself exactly if no value that it sets
    has a blob with content or a dictionary that looks like a blob. -/
theorem change_read_again (change : Change) :
    ofJson? change.toJson = some (change.mapValues reread) ∧
    (change.mapValues reread = change ↔
      ∀ value, change.Sets value → value.Canonical ∧ value.MetadataOnly) ∧
    ((change.mapValues reread).identical change = true ↔
      ∀ value, change.Sets value → value.Canonical ∧ value.MetadataOnly) := by
  refine ⟨read_again change, ?_, ?_⟩
  · rw [map_values_unchanged_iff]
    exact forall₂_congr fun value _ => (Node.read_as_itself_iff value).1
  · rw [map_values_identical_iff]
    exact forall₂_congr fun value _ => (Node.read_as_itself_iff value).2

example :
    toJson ((((new .delete "c" "d").set "@type" (.string "blob")).set "digest"
      (.string "x")).startBatch) =
      .object [("collection", .string "c"), ("documentID", .string "d"), ("type", .string "DELETE"),
        ("updatedProperties", .array [.object [("@type", .string "blob"), ("digest", .string "x")],
          .object []])] := by
  rfl

end Change
end DocAudit
