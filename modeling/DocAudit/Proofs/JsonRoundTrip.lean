import DocAudit.Node.Json
import DocAudit.Proofs.IdenticalTrees

/- The two conversions between trees and JSON. They keep everything but what has to do with blobs: an
   object that is recognised as blob metadata is cut down to the four members that a blob is written
   with, and the content of a blob is not written at all. Both conversions go down a value in the same
   way, and what they do to an object depends on no more than the two members by which a blob is
   recognised; so each statement here is an induction with nothing to argue but that one case. -/
namespace DocAudit

namespace Json

mutual

def identical : Json → Json → Bool
  | .null, .null => true
  | .boolean a, .boolean b => a == b
  | .number a, .number b => a.identical b
  | .string a, .string b => a == b
  | .array as, .array bs => identicalItems as bs
  | .object as, .object bs => identicalMembers as bs
  | _, _ => false

def identicalItems : List Json → List Json → Bool
  | [], [] => true
  | a :: as, b :: bs => identical a b && identicalItems as bs
  | _, _ => false

def identicalMembers : List (String × Json) → List (String × Json) → Bool
  | [], [] => true
  | (j, a) :: as, (k, b) :: bs => j == k && identical a b && identicalMembers as bs
  | _, _ => false

end

def Recognised (members : List (String × Json)) : Prop :=
  Entries.find? Blob.typeName members = some (.string Blob.typeMark) ∧
    ∃ digest, Entries.find? Blob.digestName members = some (.string digest)

/-- Members with the four names under which a blob is written and no others, of which the content
    type is a string and the length an integer that is not negative. -/
structure FourMembers (members : List (String × Json)) : Prop where
  names : ∀ name, name ∈ Entries.keys members ↔
    name ∈ [Blob.typeName, Blob.contentTypeName, Blob.digestName, Blob.lengthName]
  contentType : ∃ s, Entries.find? Blob.contentTypeName members = some (.string s)
  length : ∃ n, Entries.find? Blob.lengthName members = some (.ofNat n)

mutual

/-- Every outermost object that is recognised as blob metadata has just the four members. -/
def ExactBlobs : Json → Prop
  | .array items => ExactItems items
  | .object members =>
    (Recognised members → FourMembers members) ∧ (¬ Recognised members → ExactMembers members)
  | _ => True

def ExactItems : List Json → Prop
  | [] => True
  | item :: rest => ExactBlobs item ∧ ExactItems rest

def ExactMembers : List (String × Json) → Prop
  | [] => True
  | (_, value) :: rest => ExactBlobs value ∧ ExactMembers rest

end

mutual

theorem identical_self : ∀ json : Json, json.identical json = true
  | .null => rfl
  | .boolean b => beq_self_eq_true b
  | .number n => n.identical_self
  | .string s => beq_self_eq_true s
  | .array items => identical_items_self items
  | .object members => identical_members_self members

theorem identical_items_self : ∀ items, identicalItems items items = true
  | [] => rfl
  | item :: rest => by
    rw [identicalItems, identical_self item, identical_items_self rest]
    rfl

theorem identical_members_self : ∀ members, identicalMembers members members = true
  | [] => rfl
  | (name, value) :: rest => by
    rw [identicalMembers, beq_self_eq_true, identical_self value, identical_members_self rest]
    rfl

end

theorem identical_names {as bs : List (String × Json)} (same : identicalMembers as bs = true) :
    Entries.keys as = Entries.keys bs := by
  induction as generalizing bs with
  | nil => cases bs <;> first | rfl | cases same
  | cons a as ih =>
    cases bs with
    | nil => cases same
    | cons b bs =>
      simp only [identicalMembers, Bool.and_eq_true, beq_iff_eq] at same
      have rest := ih same.2
      simp only [Entries.keys] at rest ⊢
      rw [List.map_cons, List.map_cons, same.1.1, rest]

theorem identical_member {as bs : List (String × Json)} {value : Json}
    (same : identicalMembers as bs = true) (name : String)
    (found : Entries.find? name as = some value) :
    ∃ other, Entries.find? name bs = some other ∧ value.identical other = true := by
  induction as generalizing bs with
  | nil => cases found
  | cons a as ih =>
    cases bs with
    | nil => cases same
    | cons b bs =>
      obtain ⟨j, x⟩ := a
      obtain ⟨k, y⟩ := b
      simp only [identicalMembers, Bool.and_eq_true, beq_iff_eq] at same
      obtain ⟨⟨rfl, first⟩, rest⟩ := same
      simp only [Entries.find?] at found ⊢
      split at found
      next here =>
        cases found
        exact ⟨y, if_pos here, first⟩
      next elsewhere =>
        rw [if_neg elsewhere]
        exact ih rest found

end Json

theorem Blob.of_members_none_iff (members : List (String × Json)) :
    Blob.ofMembers? members = none ↔ ¬ Json.Recognised members := by
  unfold Blob.ofMembers? Json.Recognised
  split
  next mark digest type digested =>
    split
    next same => simp [type, digested, same]
    next other => simp [type, other]
  next neither =>
    simp only [true_iff]
    rintro ⟨type, digest, digested⟩
    exact neither _ _ type digested

theorem Blob.of_members_some {members : List (String × Json)} {b : Blob}
    (made : Blob.ofMembers? members = some b) :
    Entries.find? Blob.typeName members = some (.string Blob.typeMark) ∧
    Entries.find? Blob.digestName members = some (.string b.digest) ∧
    b.contentType = ((Entries.find? Blob.contentTypeName members).bind Json.string?).getD
      Blob.unknownContentType ∧
    b.length = ((Entries.find? Blob.lengthName members).bind Json.nat?).getD 0 ∧
    b.content = none := by
  unfold Blob.ofMembers? at made
  split at made
  next mark digest type digested =>
    split at made
    next same =>
      cases made
      exact ⟨by rw [type, same], digested, rfl, rfl, rfl⟩
    next => cases made
  next => cases made

namespace Node
open Json (Recognised FourMembers)

theorem find_entries_to_json (key : String) (entries : List (String × Node)) :
    Entries.find? key (entriesToJson entries) = (Entries.find? key entries).map toJson := by
  induction entries with
  | nil => rfl
  | cons entry rest ih =>
    obtain ⟨k, value⟩ := entry
    by_cases same : key = k
    · simp [entriesToJson, Entries.find?, same]
    · simp [entriesToJson, Entries.find?, same, ih]

theorem find_entries_of_json (key : String) (members : List (String × Json)) :
    Entries.find? key (entriesOfJson members) = (Entries.find? key members).map ofJson := by
  induction members with
  | nil => rfl
  | cons member rest ih =>
    obtain ⟨k, value⟩ := member
    by_cases same : key = k
    · simp [entriesOfJson, Entries.find?, same]
    · simp [entriesOfJson, Entries.find?, same, ih]

theorem to_json_string_iff (node : Node) (s : String) :
    node.toJson = .string s ↔ node = .string s := by
  cases node <;> simp [toJson, Blob.toJson]

theorem of_json_dictionary {members : List (String × Json)} (unrecognised : ¬ Recognised members) :
    ofJson (.object members) = .dictionary (entriesOfJson members) := by
  rw [ofJson, (Blob.of_members_none_iff members).mpr unrecognised]

theorem of_json_blob {members : List (String × Json)} (recognised : Recognised members) :
    ∃ b, Blob.ofMembers? members = some b ∧ ofJson (.object members) = .blob b := by
  cases made : Blob.ofMembers? members with
  | none => exact absurd recognised ((Blob.of_members_none_iff members).mp made)
  | some b => exact ⟨b, rfl, by rw [ofJson, made]⟩

theorem of_json_string_iff (json : Json) (s : String) :
    ofJson json = .string s ↔ json = .string s := by
  cases json
  case object members =>
    by_cases recognised : Recognised members
    · obtain ⟨b, -, made⟩ := of_json_blob recognised
      simp [made]
    · simp [of_json_dictionary recognised]
  all_goals simp [ofJson]

theorem recognised_to_json_iff (entries : List (String × Node)) :
    Recognised (entriesToJson entries) ↔ LooksLikeBlob entries := by
  simp [Recognised, LooksLikeBlob, find_entries_to_json, to_json_string_iff]

theorem looks_like_blob_of_json_iff (members : List (String × Json)) :
    LooksLikeBlob (entriesOfJson members) ↔ Recognised members := by
  simp [Recognised, LooksLikeBlob, find_entries_of_json, of_json_string_iff]

/-! From JSON to a tree and back. -/

mutual

theorem of_json_canonical : ∀ json : Json, (ofJson json).Canonical
  | .null | .boolean _ | .number _ | .string _ => trivial
  | .array items => items_of_json_canonical items
  | .object members => by
    by_cases recognised : Recognised members
    · obtain ⟨b, -, made⟩ := of_json_blob recognised
      rw [made]
      trivial
    · rw [of_json_dictionary recognised]
      exact ⟨fun looks => recognised ((looks_like_blob_of_json_iff members).mp looks),
        entries_of_json_canonical members⟩

theorem items_of_json_canonical : ∀ items, CanonicalItems (itemsOfJson items)
  | [] => trivial
  | item :: rest => ⟨of_json_canonical item, items_of_json_canonical rest⟩

theorem entries_of_json_canonical : ∀ members, CanonicalEntries (entriesOfJson members)
  | [] => trivial
  | (_, value) :: rest => ⟨of_json_canonical value, entries_of_json_canonical rest⟩

end

theorem of_json_written_blob (b : Blob) : ofJson b.toJson = .blob b.withoutContent := by
  simp [Blob.toJson, ofJson, Blob.ofMembers?, Entries.find?, Blob.typeName, Blob.digestName,
    Blob.contentTypeName, Blob.lengthName, Json.string?, Json.nat?, Json.ofNat, Number.toNat?,
    Blob.ofMetadata, Blob.withoutContent]

mutual

theorem read_back : ∀ node : Node, node.Canonical → ofJson node.toJson = node.withoutContent
  | .null, _ | .boolean _, _ | .number _, _ | .string _, _ => rfl
  | .blob b, _ => of_json_written_blob b
  | .array items, canonical => congrArg array (read_back_items items canonical)
  | .dictionary entries, canonical => by
    have unrecognised : ¬ Recognised (entriesToJson entries) := by
      rw [recognised_to_json_iff]
      exact canonical.1
    rw [toJson, of_json_dictionary unrecognised, read_back_entries entries canonical.2]
    rfl

theorem read_back_items : ∀ items, CanonicalItems items →
    itemsOfJson (itemsToJson items) = itemsWithoutContent items
  | [], _ => rfl
  | item :: rest, canonical => by
    rw [itemsToJson, itemsOfJson, read_back item canonical.1, read_back_items rest canonical.2]
    rfl

theorem read_back_entries : ∀ entries, CanonicalEntries entries →
    entriesOfJson (entriesToJson entries) = entriesWithoutContent entries
  | [], _ => rfl
  | (key, value) :: rest, canonical => by
    rw [entriesToJson, entriesOfJson, read_back value canonical.1,
      read_back_entries rest canonical.2]
    rfl

end

def LacksContent : Node → Prop
  | .blob b => b.content = none
  | _ => True

def MetadataOnly (root : Node) : Prop := root.Everywhere LacksContent

mutual

theorem without_content_eq_iff : ∀ node : Node, node.withoutContent = node ↔ node.MetadataOnly
  | .null | .boolean _ | .number _ | .string _ => ⟨fun _ => trivial, fun _ => rfl⟩
  | .blob b => by
    obtain ⟨contentType, length, digest, content⟩ := b
    simp [withoutContent, Blob.withoutContent, MetadataOnly, Everywhere, LacksContent, eq_comm]
  | .array items => by
    rw [withoutContent, array.injEq, items_without_content_eq_iff items]
    simp [MetadataOnly, Everywhere, LacksContent]
  | .dictionary entries => by
    rw [withoutContent, dictionary.injEq, entries_without_content_eq_iff entries]
    simp [MetadataOnly, Everywhere, LacksContent]

theorem items_without_content_eq_iff : ∀ items,
    itemsWithoutContent items = items ↔ EverywhereItems LacksContent items
  | [] => ⟨fun _ => trivial, fun _ => rfl⟩
  | item :: rest => by
    rw [itemsWithoutContent, List.cons.injEq, without_content_eq_iff item,
      items_without_content_eq_iff rest]
    rfl

theorem entries_without_content_eq_iff : ∀ entries,
    entriesWithoutContent entries = entries ↔ EverywhereEntries LacksContent entries
  | [] => ⟨fun _ => trivial, fun _ => rfl⟩
  | (key, value) :: rest => by
    rw [entriesWithoutContent, List.cons.injEq, Prod.mk.injEq, without_content_eq_iff value,
      entries_without_content_eq_iff rest]
    simp [EverywhereEntries, MetadataOnly]

end

mutual

theorem of_json_metadata_only : ∀ json : Json, (ofJson json).MetadataOnly
  | .null | .boolean _ | .number _ | .string _ => trivial
  | .array items => ⟨trivial, items_of_json_metadata_only items⟩
  | .object members => by
    by_cases recognised : Recognised members
    · obtain ⟨b, found, made⟩ := of_json_blob recognised
      rw [made]
      exact (Blob.of_members_some found).2.2.2.2
    · rw [of_json_dictionary recognised]
      exact ⟨trivial, entries_of_json_metadata_only members⟩

theorem items_of_json_metadata_only : ∀ items,
    EverywhereItems LacksContent (itemsOfJson items)
  | [] => trivial
  | item :: rest => ⟨of_json_metadata_only item, items_of_json_metadata_only rest⟩

theorem entries_of_json_metadata_only : ∀ members,
    EverywhereEntries LacksContent (entriesOfJson members)
  | [] => trivial
  | (_, value) :: rest => ⟨of_json_metadata_only value, entries_of_json_metadata_only rest⟩

end

mutual

theorem canonical_of_read_back : ∀ node : Node,
    (ofJson node.toJson).identical node.withoutContent = true → node.Canonical
  | .null, _ | .boolean _, _ | .number _, _ | .string _, _ | .blob _, _ => trivial
  | .array items, same => canonical_of_items_read_back items same
  | .dictionary entries, same => by
    -- a dictionary that looks like a blob is read back as one, and no blob equals a dictionary
    by_cases looks : LooksLikeBlob entries
    · obtain ⟨b, -, made⟩ := of_json_blob ((recognised_to_json_iff entries).mpr looks)
      rw [toJson, made] at same
      cases same
    · have unrecognised : ¬ Recognised (entriesToJson entries) := by
        rwa [recognised_to_json_iff]
      rw [toJson, of_json_dictionary unrecognised] at same
      exact ⟨looks, canonical_of_entries_read_back entries same⟩

theorem canonical_of_items_read_back : ∀ items,
    identicalItems (itemsOfJson (itemsToJson items)) (itemsWithoutContent items) = true →
    CanonicalItems items
  | [], _ => trivial
  | item :: rest, same => by
    simp only [itemsToJson, itemsOfJson, itemsWithoutContent, identicalItems,
      Bool.and_eq_true] at same
    exact ⟨canonical_of_read_back item same.1, canonical_of_items_read_back rest same.2⟩

theorem canonical_of_entries_read_back : ∀ entries,
    identicalEntries (entriesOfJson (entriesToJson entries)) (entriesWithoutContent entries) =
      true → CanonicalEntries entries
  | [], _ => trivial
  | (key, value) :: rest, same => by
    simp only [entriesToJson, entriesOfJson, entriesWithoutContent, identicalEntries,
      Bool.and_eq_true] at same
    exact ⟨canonical_of_read_back value same.1.2, canonical_of_entries_read_back rest same.2⟩

end

theorem respects_lack (x y : Node) (same : x.identical y = true) (lacks : LacksContent x) :
    LacksContent y := by
  cases x <;> try (cases y <;> first | trivial | cases same)
  case blob blob =>
    rw [identical_blob same]
    exact lacks

theorem metadata_only_of_read_back {node : Node}
    (same : (ofJson node.toJson).identical node = true) : node.MetadataOnly :=
  everywhere_identical respects_lack same (of_json_metadata_only node.toJson)

theorem identical_of_eq {a b : Node} (same : a = b) : a.identical b = true := by
  rw [same]
  exact identical_self b

/-! From JSON to a tree and back to JSON. -/

def writtenMembers (b : Blob) : List (String × Json) :=
  [(Blob.typeName, .string Blob.typeMark), (Blob.contentTypeName, .string b.contentType),
    (Blob.digestName, .string b.digest), (Blob.lengthName, .ofNat b.length)]

theorem four_members_of_written {members : List (String × Json)} {b : Blob}
    (same : Json.identicalMembers (writtenMembers b) members = true) : FourMembers members where
  names := by
    intro name
    rw [← Json.identical_names same]
    rfl
  contentType := by
    obtain ⟨value, found, equal⟩ :=
      Json.identical_member same Blob.contentTypeName rfl
    cases value <;> try cases equal
    case string s => exact ⟨s, found⟩
  length := by
    obtain ⟨value, found, equal⟩ := Json.identical_member same Blob.lengthName rfl
    cases value <;> try cases equal
    case number n =>
      cases n with
      | integer i => exact ⟨b.length, by rw [found, ← eq_of_beq equal]; rfl⟩
      | float x => cases equal

theorem members_of_four {members : List (String × Json)} {b : Blob}
    (ascending : Entries.Ascending members) (four : FourMembers members)
    (made : Blob.ofMembers? members = some b) : writtenMembers b = members := by
  obtain ⟨type, digest, contentType, length, -⟩ := Blob.of_members_some made
  obtain ⟨s, typed⟩ := four.contentType
  obtain ⟨n, counted⟩ := four.length
  have written_ascending : Entries.Ascending (writtenMembers b) := by
    rw [Entries.ascending_iff_keys]
    show [Blob.typeName, Blob.contentTypeName, Blob.digestName, Blob.lengthName].Pairwise
      fun a b => compare a b = .lt
    decide
  -- both lists ascend, so they are equal if every name leads to the same in both
  refine Entries.ascending_ext written_ascending ascending fun name => ?_
  by_cases listed : name ∈ Entries.keys members
  · rw [four.names] at listed
    simp only [List.mem_cons, List.not_mem_nil, or_false] at listed
    rcases listed with rfl | rfl | rfl | rfl
    · rw [type]
      rfl
    · rw [typed, ← (show b.contentType = s from by rw [contentType, typed]; rfl)]
      rfl
    · rw [digest]
      rfl
    · have read : Json.nat? (.ofNat n) = some n := by
        simp [Json.nat?, Json.ofNat, Number.toNat?]
      rw [counted, ← (show b.length = n from by rw [length, counted, Option.bind_some, read]; rfl)]
      rfl
  · have unwritten : name ∉ Entries.keys (writtenMembers b) := by rwa [four.names] at listed
    rw [Entries.find_none_iff.mpr listed, Entries.find_none_iff.mpr unwritten]

mutual

theorem exact_of_identical : ∀ json : Json, (ofJson json).toJson.identical json = true →
    json.ExactBlobs
  | .null, _ | .boolean _, _ | .number _, _ | .string _, _ => trivial
  | .array items, same => exact_of_items_identical items same
  | .object members, same => by
    constructor
    · intro recognised
      obtain ⟨b, -, made⟩ := of_json_blob recognised
      rw [made] at same
      exact four_members_of_written same
    · intro unrecognised
      rw [of_json_dictionary unrecognised] at same
      exact exact_of_members_identical members same

theorem exact_of_items_identical : ∀ items,
    Json.identicalItems (itemsToJson (itemsOfJson items)) items = true → Json.ExactItems items
  | [], _ => trivial
  | item :: rest, same => by
    simp only [itemsOfJson, itemsToJson, Json.identicalItems, Bool.and_eq_true] at same
    exact ⟨exact_of_identical item same.1, exact_of_items_identical rest same.2⟩

theorem exact_of_members_identical : ∀ members,
    Json.identicalMembers (entriesToJson (entriesOfJson members)) members = true →
    Json.ExactMembers members
  | [], _ => trivial
  | (name, value) :: rest, same => by
    simp only [entriesOfJson, entriesToJson, Json.identicalMembers, Bool.and_eq_true] at same
    exact ⟨exact_of_identical value same.1.2, exact_of_members_identical rest same.2⟩

end

mutual

theorem written_of_exact : ∀ json : Json, json.Ordered → json.ExactBlobs →
    (ofJson json).toJson = json
  | .null, _, _ | .boolean _, _, _ | .number _, _, _ | .string _, _, _ => rfl
  | .array items, ordered, exact_blobs =>
    congrArg Json.array (written_of_exact_items items ordered exact_blobs)
  | .object members, ordered, exact_blobs => by
    by_cases recognised : Recognised members
    · obtain ⟨b, found, made⟩ := of_json_blob recognised
      rw [made]
      exact congrArg Json.object (members_of_four ordered.1 (exact_blobs.1 recognised) found)
    · rw [of_json_dictionary recognised, toJson,
        written_of_exact_members members ordered.2 (exact_blobs.2 recognised)]

theorem written_of_exact_items : ∀ items, Json.OrderedItems items → Json.ExactItems items →
    itemsToJson (itemsOfJson items) = items
  | [], _, _ => rfl
  | item :: rest, ordered, exact_blobs => by
    rw [itemsOfJson, itemsToJson, written_of_exact item ordered.1 exact_blobs.1,
      written_of_exact_items rest ordered.2 exact_blobs.2]

theorem written_of_exact_members : ∀ members, Json.OrderedMembers members →
    Json.ExactMembers members → entriesToJson (entriesOfJson members) = members
  | [], _, _ => rfl
  | (name, value) :: rest, ordered, exact_blobs => by
    rw [entriesOfJson, entriesToJson, written_of_exact value ordered.1 exact_blobs.1,
      written_of_exact_members rest ordered.2 exact_blobs.2]

end

theorem written_again_iff {json : Json} (ordered : json.Ordered) :
    ((ofJson json).toJson = json ↔ json.ExactBlobs) ∧
      ((ofJson json).toJson.identical json = true ↔ json.ExactBlobs) := by
  have written := written_of_exact json ordered
  have equal : (ofJson json).toJson = json → (ofJson json).toJson.identical json = true := by
    intro same
    rw [same]
    exact json.identical_self
  exact ⟨⟨fun same => exact_of_identical json (equal same), written⟩,
    ⟨exact_of_identical json, fun exact_blobs => equal (written exact_blobs)⟩⟩

theorem read_again_iff (node : Node) :
    (ofJson node.toJson = node.withoutContent ↔ node.Canonical) ∧
      ((ofJson node.toJson).identical node.withoutContent = true ↔ node.Canonical) :=
  ⟨⟨fun same => canonical_of_read_back node (identical_of_eq same), read_back node⟩,
    ⟨canonical_of_read_back node, fun canonical => identical_of_eq (read_back node canonical)⟩⟩

theorem read_as_itself_iff (node : Node) :
    (ofJson node.toJson = node ↔ node.Canonical ∧ node.MetadataOnly) ∧
      ((ofJson node.toJson).identical node = true ↔ node.Canonical ∧ node.MetadataOnly) := by
  have parts (same : (ofJson node.toJson).identical node = true) :
      node.Canonical ∧ node.MetadataOnly := by
    have metadata_only := metadata_only_of_read_back same
    refine ⟨canonical_of_read_back node ?_, metadata_only⟩
    rwa [(without_content_eq_iff node).mpr metadata_only]
  have kept (both : node.Canonical ∧ node.MetadataOnly) : ofJson node.toJson = node := by
    rw [read_back node both.1, (without_content_eq_iff node).mpr both.2]
  exact ⟨⟨fun same => parts (identical_of_eq same), kept⟩,
    ⟨parts, fun both => identical_of_eq (kept both)⟩⟩

/-- A tree that was read from JSON is canonical. A JSON value is written as it was read exactly if
    every outermost object that is taken for a blob has the four members of one; a tree is read as
    it was written, less the contents of its blobs, exactly if it is canonical. Equality is meant
    both as being the same value and as structural equality, in which the two zeros are one. -/
theorem conversions_lossless :
    (∀ json : Json, (ofJson json).Canonical ∧ ofJson (ofJson json).toJson = ofJson json) ∧
    (∀ json : Json, json.Ordered →
      ((ofJson json).toJson = json ↔ json.ExactBlobs) ∧
      ((ofJson json).toJson.identical json = true ↔ json.ExactBlobs)) ∧
    (∀ node : Node,
      (ofJson node.toJson = node.withoutContent ↔ node.Canonical) ∧
      ((ofJson node.toJson).identical node.withoutContent = true ↔ node.Canonical)) ∧
    ∀ node : Node,
      (ofJson node.toJson = node ↔ node.Canonical ∧ node.MetadataOnly) ∧
      ((ofJson node.toJson).identical node = true ↔ node.Canonical ∧ node.MetadataOnly) := by
  refine ⟨fun json => ?_, fun json => written_again_iff, read_again_iff, read_as_itself_iff⟩
  have canonical := of_json_canonical json
  have metadata_only := of_json_metadata_only json
  exact ⟨canonical, (read_as_itself_iff _).1.mpr ⟨canonical, metadata_only⟩⟩

def partialMetadata : Json :=
  .object [("@type", .string "blob"), ("a", .object [("@type", .string "blob"),
    ("digest", .string "d"), ("length", .number (.float (.zero false)))])]

theorem defaults_are_written :
    partialMetadata.Ordered ∧
    (ofJson partialMetadata).toJson =
      .object [("@type", .string "blob"), ("a", .object [("@type", .string "blob"),
        ("content_type", .string "application/octet-stream"), ("digest", .string "d"),
        ("length", .ofNat 0)])] ∧
    (ofJson partialMetadata).toJson ≠ partialMetadata := by
  have ordered : partialMetadata.Ordered := by
    simp [partialMetadata, Json.Ordered, Json.OrderedMembers, Entries.Ascending]
    decide
  refine ⟨ordered, rfl, ?_⟩
  rw [ne_eq, (conversions_lossless.2.1 _ ordered).1]
  rintro ⟨-, members⟩
  have unmarked : ¬ Recognised [("@type", .string "blob"), ("a", .object
      [("@type", .string "blob"), ("digest", .string "d"),
        ("length", .number (.float (.zero false)))])] := by
    rintro ⟨-, _, ⟨⟩⟩
  obtain ⟨-, ⟨exact_blob, -⟩, -⟩ := members unmarked
  obtain ⟨_, ⟨⟩⟩ := (exact_blob ⟨rfl, "d", rfl⟩).contentType

end Node
end DocAudit
