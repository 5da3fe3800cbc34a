import DocAudit.Comparison
import DocAudit.Replay
import DocAudit.Snapshot

/- An audit of a document source against a snapshot and the changes claimed since. Every recorded
   document is taken in the order of the keys: what it should be now follows from what was recorded
   and the last change that names it, and is compared with what the source says. The first document
   that is not as it should be ends the audit, and so does the first that cannot be judged. -/
namespace DocAudit

structure Response where
  result : Bool
  description : Option String
  expected : Option Node
  actual : Option Node
  document : Option Node

namespace Response

def success : Response := ⟨true, none, none, none, none⟩

def failure (description : String) : Response := ⟨false, some description, none, none, none⟩

def isSuccess (response : Response) : Bool := response.result

def identicalNodes : Option Node → Option Node → Bool
  | none, none => true
  | some a, some b => a.identical b
  | _, _ => false

def identical (a b : Response) : Bool :=
  a.result == b.result && a.description == b.description &&
    identicalNodes a.expected b.expected && identicalNodes a.actual b.actual &&
    identicalNodes a.document b.document

def fields : List String := ["result", "description", "expected", "actual", "document"]

def ifSome {α : Type} (name : String) (toJson : α → Json) : Option α → List (String × Json)
  | none => []
  | some a => [(name, toJson a)]

def toJson (response : Response) : Json :=
  .ofMembers ([("result", .boolean response.result)] ++
    ifSome "description" .string response.description ++
    ifSome "expected" Node.toJson response.expected ++
    ifSome "actual" Node.toJson response.actual ++
    ifSome "document" Node.toJson response.document)

def ofJson? (json : Json) : Option Response := do
  let node (json : Json) : Option Node := some (.ofJson json)
  let record ← json.record? fields
  let result ← Json.required? Json.boolean? "result" record
  let description ← Json.optional? Json.string? "description" record
  let expected ← Json.optional? node "expected" record
  let actual ← Json.optional? node "actual" record
  let document ← Json.optional? node "document" record
  return ⟨result, description, expected, actual, document⟩

end Response

namespace Audit

/-- The last change that names each document. Every change must name a recorded one. -/
def lastChanges (snapshot : Snapshot) :
    Table DocumentKey Change → List Change → Except AuditError (Table DocumentKey Change)
  | named, [] => .ok named
  | named, change :: rest =>
    match change.documentKey snapshot.config.defaultScope with
    | .error error => .error error
    | .ok key =>
      if snapshot.contains key then lastChanges snapshot (named.insert key change) rest
      else .error (.unknownKey key)

/-- What a document should be now. An update of a document that was absent starts from the empty
    dictionary. -/
def expectedBody (loader : BlobLoader) (cache : PathCache) (recorded : Option Node) :
    Option Change → Except AuditError (Option Node) × PathCache
  | none => (.ok recorded, cache)
  | some change =>
    if change.kind.removesDocument then (.ok none, cache)
    else
      match change.apply loader cache (recorded.getD (.dictionary [])) with
      | (.ok body, cache) => (.ok (some body), cache)
      | (.error error, cache) => (.error error, cache)

def unexpectedDocument : Option ChangeKind → String
  | some .delete => "was not deleted"
  | some .purge => "was not purged"
  | _ => "should not exist"

def mismatchText (mismatch : Mismatch) : String :=
  match mismatch.reason with
  | .mismatchedProperty => "had unexpected properties at key '" ++ mismatch.path ++ "'"
  | .missingBlobFile => "had non-existing blob at key '" ++ mismatch.path ++ "'"

def failed (key : DocumentKey) (what : String) : Response :=
  .failure (key.text ++ " " ++ what)

def check (includeDocument : Bool) (key : DocumentKey) (kind : Option ChangeKind) :
    Option Node → Option Node → Option Response
  | none, none => none
  | none, some _ => some (failed key (unexpectedDocument kind))
  | some _, none => some (failed key "was not found")
  | some expected, some actual =>
    (Comparison.compare expected actual).map fun mismatch =>
      { failed key (mismatchText mismatch) with
        expected := mismatch.expected
        actual := mismatch.actual
        document := if includeDocument then some actual else none }

structure Trail where
  reads : List DocumentKey
  outcome : Except AuditError Response

def Trail.after (key : DocumentKey) (trail : Trail) : Trail :=
  { trail with reads := key :: trail.reads }

def auditDocuments (config : Config) (changes : Table DocumentKey Change)
    (source : DocumentSource) (loader : BlobLoader) :
    PathCache → List (DocumentKey × Option Node) → Trail
  | _, [] => ⟨[], .ok .success⟩
  | cache, (key, recorded) :: rest =>
    let change := changes.find? key
    match expectedBody loader cache recorded change with
    -- the source is not asked for a document whose claimed body cannot be made
    | (.error error, _) => ⟨[], .error error⟩
    | (.ok expected, cache) =>
      match source key with
      | .error error => ⟨[key], .error error⟩
      | .ok actual =>
        match check config.includeDocument key (change.map Change.kind) expected actual with
        | some response => ⟨[key], .ok response⟩
        | none => (auditDocuments config changes source loader cache rest).after key

def run (snapshot : Snapshot) (source : DocumentSource) (changes : List Change)
    (loader : BlobLoader) : Trail :=
  match lastChanges snapshot Table.empty changes with
  | .error error => ⟨[], .error error⟩
  | .ok named =>
    auditDocuments snapshot.config named source loader .empty snapshot.documents.entries

end Audit

def Snapshot.verify (snapshot : Snapshot) (source : DocumentSource) (changes : List Change)
    (loader : BlobLoader) : Except AuditError Response :=
  (Audit.run snapshot source changes loader).outcome

end DocAudit
