import DocAudit.AuditError
import DocAudit.Json

/- The settings of an audit. -/
namespace DocAudit

structure BlobConfig where
  directory : Option String
  maxBlobBytes : Nat
deriving DecidableEq, Repr

structure Config where
  defaultScope : String
  includeDocument : Bool
  blobs : BlobConfig
deriving DecidableEq, Repr

namespace BlobConfig

def defaultMaxBlobBytes : Nat := 64 * 1024 * 1024

def default : BlobConfig := ⟨none, defaultMaxBlobBytes⟩

def fields : List String := ["directory", "max_blob_bytes"]

def toJson (config : BlobConfig) : Json :=
  let directory := match config.directory with
    | some directory => [("directory", .string directory)]
    | none => []
  .ofMembers (directory ++ [("max_blob_bytes", .ofNat config.maxBlobBytes)])

def ofJson? (json : Json) : Option BlobConfig := do
  let record ← json.record? fields
  let directory ← Json.optional? Json.string? "directory" record
  let maxBlobBytes ← Json.defaulted? Json.nat? "max_blob_bytes" defaultMaxBlobBytes record
  return ⟨directory, maxBlobBytes⟩

end BlobConfig

namespace Config

def default : Config := ⟨CollectionName.defaultScope, true, .default⟩

/-- A default scope must be usable as the scope of a collection, and some blob must be small
    enough to load. -/
def validate (config : Config) : Except ConfigFault Unit :=
  if config.defaultScope = "" ∨ CollectionName.separator ∈ config.defaultScope.toList then
    .error (.invalidDefaultScope config.defaultScope)
  else if config.blobs.maxBlobBytes = 0 then .error .noBlobBytes
  else .ok ()

def fields : List String := ["default_scope", "include_document", "blobs"]

def toJson (config : Config) : Json :=
  .ofMembers [("default_scope", .string config.defaultScope),
    ("include_document", .boolean config.includeDocument), ("blobs", config.blobs.toJson)]

def ofJson? (json : Json) : Option Config := do
  let record ← json.record? fields
  let defaultScope ←
    Json.defaulted? Json.string? "default_scope" CollectionName.defaultScope record
  let includeDocument ← Json.defaulted? Json.boolean? "include_document" true record
  let blobs ← Json.defaulted? BlobConfig.ofJson? "blobs" .default record
  return ⟨defaultScope, includeDocument, blobs⟩

end Config
end DocAudit
