import DocAudit.Collection
import DocAudit.FileTree
import DocAudit.KeyPath.Parser
import DocAudit.Node.Edit

/- Why a request cannot be carried out. A document that is not as expected is never such an error;
   it is what an audit reports. -/
namespace DocAudit

inductive BlobFault where
  | noLoader
  | emptyReference
  | outsideDirectory
  | unreadable (fault : FileFault)
  | notAFile
  | tooLarge (size limit : Nat)
  | other (reason : String)
deriving DecidableEq, Repr

def BlobFault.message : BlobFault → String
  | .noLoader => "no blob loader configured"
  | .emptyReference => "empty reference"
  | .outsideDirectory => "reference must be a relative path inside the blob directory"
  | .unreadable fault => fault.message
  | .notAFile => "not a regular file"
  | .tooLarge size limit =>
    "blob is " ++ toString size ++ " bytes, limit is " ++ toString limit ++ " bytes"
  | .other reason => reason

inductive ConfigFault where
  | invalidDefaultScope (scope : String)
  | noBlobBytes
  | unreadable (path : String) (fault : FileFault)
  | malformed (path : String)
  | numberOutOfRange
  | unwritable (path : String) (fault : FileFault)
  | defaultUnwritable (path : String) (fault : FileFault)
deriving DecidableEq, Repr

def ConfigFault.message : ConfigFault → String
  | .invalidDefaultScope scope =>
    "Invalid default_scope '" ++ scope ++ "': must be non-empty and contain no '.'"
  | .noBlobBytes => "Invalid blobs.max_blob_bytes: must be greater than zero"
  | .unreadable path fault =>
    "Failed to read config file '" ++ path ++ "': " ++ fault.message
  | .malformed path => "Failed to parse config file '" ++ path ++ "'"
  | .numberOutOfRange => "Failed to serialize config: out-of-range value for u64 type"
  | .unwritable path fault => "Failed to write config file '" ++ path ++ "': " ++ fault.message
  | .defaultUnwritable path fault =>
    "Failed to write default config file '" ++ path ++ "': " ++ fault.message

inductive AuditError where
  | invalidPath (error : KeyPath.ParseError)
  | edit (error : EditError)
  | unknownKey (key : DocumentKey)
  | blobFetchFailed (reference : String) (fault : BlobFault)
  | invalidCollection (error : CollectionError)
  | store (reason : String)
  | config (fault : ConfigFault)
deriving DecidableEq, Repr

namespace AuditError

def editMessage (error : EditError) : String :=
  let path := "'" ++ error.path.render ++ "'"
  match error.fault with
  | .typeMismatch expected found =>
    "Type mismatch at " ++ path ++ ": expected " ++ expected.name ++ ", found " ++ found.name
  | .negativeIndex i => "Negative array index " ++ toString i ++ " at " ++ path
  | .limit error => "Limit exceeded at " ++ path ++ ": " ++ error.message

def message : AuditError → String
  | .invalidPath error => "Invalid path: " ++ error.message
  | .edit error => editMessage error
  | .unknownKey key => key.text ++ " does not exist in the snapshot"
  | .blobFetchFailed reference fault =>
    "Failed to load blob '" ++ reference ++ "': " ++ fault.message
  | .invalidCollection error => error.message
  | .store reason => "Document store error: " ++ reason
  | .config fault => "Config error: " ++ fault.message

def isRequestError : AuditError → Bool
  | .invalidPath _ => true
  | .edit _ => true
  | .unknownKey _ => true
  | .invalidCollection _ => true
  | .blobFetchFailed .. => false
  | .store _ => false
  | .config _ => false

end AuditError
end DocAudit
