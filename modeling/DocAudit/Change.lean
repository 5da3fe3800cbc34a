import DocAudit.AuditError
import DocAudit.Node.Json
import DocAudit.Table

/- What is claimed to have happened to one document: it was updated, deleted or purged. An update
   sets the values at some paths, batch by batch, then removes the values at others, and last puts
   blobs in place that are given by reference. Within a batch the order is that of the written
   paths. -/
namespace DocAudit

inductive ChangeKind where
  | update
  | delete
  | purge
deriving DecidableEq, Repr

def ChangeKind.removesDocument : ChangeKind → Bool
  | .update => false
  | .delete => true
  | .purge => true

structure Change where
  kind : ChangeKind
  collection : String
  documentId : String
  updates : List (Table String Node)
  removals : List String
  blobs : Table String String

namespace Change

def new (kind : ChangeKind) (collection documentId : String) : Change :=
  ⟨kind, collection, documentId, [], [], Table.empty⟩

def set (change : Change) (path : String) (value : Node) : Change :=
  let batch := change.updates.getLast?.getD Table.empty
  { change with updates := change.updates.dropLast ++ [batch.insert path value] }

def startBatch (change : Change) : Change :=
  { change with updates := change.updates ++ [Table.empty] }

def remove (change : Change) (path : String) : Change :=
  { change with removals := change.removals ++ [path] }

def putBlob (change : Change) (path reference : String) : Change :=
  { change with blobs := change.blobs.insert path reference }

def documentKey (change : Change) (defaultScope : String) : Except AuditError DocumentKey :=
  match CollectionName.parseIn defaultScope change.collection with
  | .ok collection => .ok ⟨collection, change.documentId⟩
  | .error error => .error (.invalidCollection error)

def identicalBatches : List (Table String Node) → List (Table String Node) → Bool
  | [], [] => true
  | a :: as, b :: bs => Node.identicalEntries a.entries b.entries && identicalBatches as bs
  | _, _ => false

def identical (a b : Change) : Bool :=
  a.kind == b.kind && a.collection == b.collection && a.documentId == b.documentId &&
    identicalBatches a.updates b.updates && a.removals == b.removals &&
    a.blobs.entries == b.blobs.entries

end Change

structure DocumentEntry where
  collection : String
  id : String
deriving DecidableEq, Repr

end DocAudit
