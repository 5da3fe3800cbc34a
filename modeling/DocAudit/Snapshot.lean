import DocAudit.Change
import DocAudit.Config
import DocAudit.Store

/- The recorded state of some documents: for each recorded key the body that the document had, or
   the fact that it did not exist. Recording a document again replaces what was recorded. -/
namespace DocAudit

structure Snapshot where
  config : Config
  documents : Table DocumentKey (Option Node)

namespace Snapshot

def empty (config : Config) : Snapshot := ⟨config, Table.empty⟩

def withConfig (config : Config) : Except AuditError Snapshot :=
  match config.validate with
  | .ok () => .ok (empty config)
  | .error fault => .error (.config fault)

def size (snapshot : Snapshot) : Nat := snapshot.documents.size

def isEmpty (snapshot : Snapshot) : Bool := snapshot.documents.isEmpty

def contains (snapshot : Snapshot) (key : DocumentKey) : Bool := snapshot.documents.contains key

def get (snapshot : Snapshot) (key : DocumentKey) : Except AuditError (Option Node) :=
  match snapshot.documents.find? key with
  | some recorded => .ok recorded
  | none => .error (.unknownKey key)

def insert (snapshot : Snapshot) (key : DocumentKey) (body : Option Node) : Snapshot :=
  { snapshot with documents := snapshot.documents.insert key body }

def record (snapshot : Snapshot) (source : DocumentSource) (entry : DocumentEntry) :
    Snapshot × Except AuditError Unit :=
  match CollectionName.parseIn snapshot.config.defaultScope entry.collection with
  | .error error => (snapshot, .error (.invalidCollection error))
  | .ok collection =>
    let key : DocumentKey := ⟨collection, entry.id⟩
    match source key with
    | .error error => (snapshot, .error error)
    | .ok body => (snapshot.insert key body, .ok ())

/-- Records documents up to the first that cannot be recorded. Those before it stay recorded. -/
def recordAll (snapshot : Snapshot) (source : DocumentSource) :
    List DocumentEntry → Snapshot × Except AuditError Unit
  | [] => (snapshot, .ok ())
  | entry :: rest =>
    match snapshot.record source entry with
    | (snapshot, .error error) => (snapshot, .error error)
    | (snapshot, .ok ()) => recordAll snapshot source rest

end Snapshot
end DocAudit
