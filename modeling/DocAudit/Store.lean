import DocAudit.AuditError
import DocAudit.Table

/- Where documents are read from. A document source answers for every key with the body of the
   document, with its absence, or with an error; a store is a source that holds the documents
   itself. Of a document that was deleted or purged a store keeps nothing. -/
namespace DocAudit

abbrev DocumentSource := DocumentKey → Except AuditError (Option Node)

structure Store where
  documents : Table DocumentKey Node

namespace Store

def empty : Store := ⟨Table.empty⟩

def size (store : Store) : Nat := store.documents.size

def isEmpty (store : Store) : Bool := store.documents.isEmpty

def find? (store : Store) (key : DocumentKey) : Option Node := store.documents.find? key

def source (store : Store) : DocumentSource := fun key => .ok (store.find? key)

def save (store : Store) (key : DocumentKey) (body : Node) : Store :=
  ⟨store.documents.insert key body⟩

def delete (store : Store) (key : DocumentKey) : Store × Bool :=
  (⟨store.documents.erase key⟩, store.documents.contains key)

def purge (store : Store) (key : DocumentKey) : Store × Bool := store.delete key

/-- Edits the body of a document that is there; besides its answer the edit yields the body that
    it leaves behind. -/
def edit {α : Type} (store : Store) (key : DocumentKey) (change : Node → Node × α) :
    Store × Option α :=
  match store.find? key with
  | none => (store, none)
  | some body =>
    let (body, answer) := change body
    (store.save key body, some answer)

end Store
end DocAudit
