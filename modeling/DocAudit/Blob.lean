import DocAudit.Digest.Base64
import DocAudit.Digest.Sha1
import DocAudit.Json

/- A blob is a binary attachment of a document: its metadata, which the document holds, and its
   content if that has been loaded. Content that is attached later does not change the metadata. -/
namespace DocAudit

structure Blob where
  contentType : String
  length : Nat
  digest : String
  content : Option (List UInt8)
deriving DecidableEq, Repr

namespace Blob

def digestOf (content : List UInt8) : String :=
  "sha1-" ++ String.ofList (Base64.encode (Sha1.digest content))

example : digestOf "abc".toUTF8.data.toList = "sha1-qZk+NkcGgWq6PiVxeFDCbJzQ2J0=" := by
  decide +kernel

def ofContent (contentType : String) (content : List UInt8) : Blob :=
  ⟨contentType, content.length, digestOf content, some content⟩

def ofMetadata (contentType : String) (length : Nat) (digest : String) : Blob :=
  ⟨contentType, length, digest, none⟩

def withContent (blob : Blob) (content : List UInt8) : Blob := { blob with content := some content }

def withoutContent (blob : Blob) : Blob := { blob with content := none }

def hasContent (blob : Blob) : Bool := blob.content.isSome

def sameMetadata (a b : Blob) : Bool :=
  a.contentType == b.contentType && a.length == b.length && a.digest == b.digest

def typeName : String := "@type"
def typeMark : String := "blob"
def digestName : String := "digest"
def contentTypeName : String := "content_type"
def lengthName : String := "length"
def unknownContentType : String := "application/octet-stream"

def toJson (blob : Blob) : Json :=
  .object [(typeName, .string typeMark), (contentTypeName, .string blob.contentType),
    (digestName, .string blob.digest), (lengthName, .ofNat blob.length)]

/-- The blob that an object describes, if it is marked as one and has a digest. The other metadata
    may be missing. -/
def ofMembers? (members : List (String × Json)) : Option Blob :=
  match Entries.find? typeName members, Entries.find? digestName members with
  | some (.string mark), some (.string digest) =>
    if mark = typeMark then
      let contentType := (Entries.find? contentTypeName members).bind Json.string?
      let length := (Entries.find? lengthName members).bind Json.nat?
      some (.ofMetadata (contentType.getD unknownContentType) (length.getD 0) digest)
    else none
  | _, _ => none

end Blob
end DocAudit
