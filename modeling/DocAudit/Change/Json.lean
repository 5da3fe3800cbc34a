import DocAudit.Change

/- Changes and document entries on the wire. Parts of a change that are empty are left out. -/
namespace DocAudit

namespace ChangeKind

def wireName : ChangeKind → String
  | .update => "UPDATE"
  | .delete => "DELETE"
  | .purge => "PURGE"

def ofWireName? (name : String) : Option ChangeKind :=
  if name = "UPDATE" then some .update
  else if name = "DELETE" then some .delete
  else if name = "PURGE" then some .purge
  else none

/-- A kind is given by its name, or by an object with that name alone, which has no value. -/
def ofJson? : Json → Option ChangeKind
  | .string name => ofWireName? name
  | .object [(name, .null)] => ofWireName? name
  | _ => none

end ChangeKind

namespace Change

def fields : List String :=
  ["type", "collection", "documentID", "updatedProperties", "removedProperties", "updatedBlobs"]

def batchToJson (batch : Table String Node) : Json := .object (Node.entriesToJson batch.entries)

def blobsToJson (blobs : Table String String) : Json :=
  .object (blobs.entries.map fun entry => (entry.1, .string entry.2))

def unlessEmpty {α : Type} (name : String) (list : List α) (json : Json) : List (String × Json) :=
  if list.isEmpty then [] else [(name, json)]

def toJson (change : Change) : Json :=
  .ofMembers
    ([("type", .string change.kind.wireName), ("collection", .string change.collection),
      ("documentID", .string change.documentId)] ++
      unlessEmpty "updatedProperties" change.updates (.array (change.updates.map batchToJson)) ++
      unlessEmpty "removedProperties" change.removals (.array (change.removals.map .string)) ++
      unlessEmpty "updatedBlobs" change.blobs.entries (blobsToJson change.blobs))

def batchOfJson? (json : Json) : Option (Table String Node) :=
  json.object?.map fun members => Table.ofList (Node.entriesOfJson members)

def updatesOfJson? (json : Json) : Option (List (Table String Node)) :=
  json.array?.bind (List.mapM batchOfJson?)

def removalsOfJson? (json : Json) : Option (List String) :=
  json.array?.bind (List.mapM Json.string?)

def blobsOfJson? (json : Json) : Option (Table String String) := do
  let members ← json.object?
  let entries ← members.mapM fun member => member.2.string?.map fun r => (member.1, r)
  return Table.ofList entries

def ofJson? (json : Json) : Option Change := do
  let record ← json.record? fields
  let kind ← Json.required? ChangeKind.ofJson? "type" record
  let collection ← Json.required? Json.string? "collection" record
  let documentId ← Json.required? Json.string? "documentID" record
  let updates ← Json.defaulted? updatesOfJson? "updatedProperties" [] record
  let removals ← Json.defaulted? removalsOfJson? "removedProperties" [] record
  let blobs ← Json.defaulted? blobsOfJson? "updatedBlobs" Table.empty record
  return ⟨kind, collection, documentId, updates, removals, blobs⟩

end Change

namespace DocumentEntry

def fields : List String := ["collection", "id"]

def toJson (entry : DocumentEntry) : Json :=
  .ofMembers [("collection", .string entry.collection), ("id", .string entry.id)]

def ofJson? (json : Json) : Option DocumentEntry := do
  let record ← json.record? fields
  let collection ← Json.required? Json.string? "collection" record
  let id ← Json.required? Json.string? "id" record
  return ⟨collection, id⟩

end DocumentEntry
end DocAudit
