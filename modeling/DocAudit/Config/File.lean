import DocAudit.Config
import DocAudit.Toml.Reader

/- The configuration file, in TOML. Keys that are not settings are ignored, settings that are not
   given have their defaults. -/
namespace DocAudit

namespace BlobConfig

def ofToml? (toml : Toml) : Option BlobConfig := do
  let record ← toml.record? fields
  let directory ← Toml.defaulted? (fun toml => toml.string?.map some) "directory" none record
  let maxBlobBytes ← Toml.defaulted? Toml.nat? "max_blob_bytes" defaultMaxBlobBytes record
  return ⟨directory, maxBlobBytes⟩

end BlobConfig

namespace Config

def fileName : String := "docverify.toml"

def ofToml? (toml : Toml) : Option Config := do
  let record ← toml.record? fields
  let defaultScope ←
    Toml.defaulted? Toml.string? "default_scope" CollectionName.defaultScope record
  let includeDocument ← Toml.defaulted? Toml.boolean? "include_document" true record
  let blobs ← Toml.defaulted? BlobConfig.ofToml? "blobs" .default record
  return ⟨defaultScope, includeDocument, blobs⟩

def defaultFile : String := "# docverify configuration
#
# Scope applied to collection names given without one (\"travel\" means
# \"_default.travel\").
default_scope = \"_default\"

# Attach the current document body to a failed comparison (default: true).
include_document = true

# Blob references in updatedBlobs are file names relative to this directory.
# Without a directory, verifications that update blobs fail.
[blobs]
# directory = \"/var/lib/docverify/blobs\"
max_blob_bytes = 67108864
"

def textOf (content : List UInt8) : Except FileFault String :=
  match String.fromUTF8? ⟨content.toArray⟩ with
  | some text => .ok text
  | none => .error .invalidUtf8

def ofText? (text : String) : Option Config :=
  (Toml.parse? text).bind fun entries => ofToml? (.table entries)

def load (files : FileTree) (path : String) : Except ConfigFault Config :=
  match (files.read path).bind textOf with
  | .error fault => .error (.unreadable path fault)
  | .ok text =>
    match ofText? text with
    | none => .error (.malformed path)
    | some config =>
      match config.validate with
      | .ok () => .ok config
      | .error fault => .error fault

def writeDefaultIfMissing (files : FileTree) (path : String) : Except ConfigFault FileTree :=
  match files.look path with
  | .ok _ => .ok files
  | .error _ =>
    match files.write path defaultFile.toUTF8.toList with
    | .ok files => .ok files
    | .error fault => .error (.defaultUnwritable path fault)

/-- The text of a file with these settings. Numbers in it are signed, of 64 bits. -/
def toText (config : Config) : Except ConfigFault String :=
  if config.blobs.maxBlobBytes ≤ Word.greatestSigned then
    let directory := match config.blobs.directory with
      | some directory => "directory = " ++ Toml.quote directory ++ "\n"
      | none => ""
    .ok ("default_scope = " ++ Toml.quote config.defaultScope ++ "\n" ++
      "include_document = " ++ (if config.includeDocument then "true" else "false") ++ "\n\n" ++
      "[blobs]\n" ++ directory ++
      "max_blob_bytes = " ++ toString config.blobs.maxBlobBytes ++ "\n")
  else .error .numberOutOfRange

def save (config : Config) (files : FileTree) (path : String) : Except ConfigFault FileTree :=
  match config.toText with
  | .error fault => .error fault
  | .ok text =>
    match files.write path text.toUTF8.toList with
    | .ok files => .ok files
    | .error fault => .error (.unwritable path fault)

end Config
end DocAudit
