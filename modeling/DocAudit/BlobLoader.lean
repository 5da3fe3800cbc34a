import DocAudit.Config

/- Blob loaders turn the references of a change into blobs with content. The directory loader reads
   the file that a reference names inside its directory, of a limited size, and takes the content
   type from the ending of the file's name. -/
namespace DocAudit

abbrev BlobLoader := String → Except AuditError Blob

namespace BlobLoader

def failure (reference : String) (fault : BlobFault) : Except AuditError Blob :=
  .error (.blobFetchFailed reference fault)

def none : BlobLoader := fun reference => failure reference .noLoader

def contentTypes : List (String × String) :=
  [("txt", "text/plain"), ("json", "application/json"), ("html", "text/html"),
    ("htm", "text/html"), ("xml", "application/xml"), ("jpg", "image/jpeg"),
    ("jpeg", "image/jpeg"), ("png", "image/png"), ("gif", "image/gif"), ("webp", "image/webp"),
    ("pdf", "application/pdf"), ("mp3", "audio/mpeg"), ("mp4", "video/mp4")]

def lowerAscii (s : String) : String := String.ofList (s.toList.map Char.toLower)

def contentTypeFor (path : String) : String :=
  let known := (FilePath.extension? path).bind fun ending =>
    Entries.find? (lowerAscii ending) contentTypes
  known.getD Blob.unknownContentType

end BlobLoader

abbrev FileView := String → Except FileFault FileEntry

/-- What a loader can ask a file system about a path. The answers are actions, as a file system may
    change between two of them and may note that it was asked. -/
structure FileSystem (m : Type → Type) where
  metadata : String → m (Except FileFault FileMetadata)
  read : String → m (Except FileFault (List UInt8))

def FileSystem.ofView (files : FileView) : FileSystem Id where
  metadata path := (files path).map FileEntry.metadata
  read path := (files path).bind FileEntry.content

structure DirectoryLoader where
  root : String
  maxBytes : Nat
deriving DecidableEq, Repr

namespace DirectoryLoader

def new (root : String) : DirectoryLoader := ⟨root, BlobConfig.defaultMaxBlobBytes⟩

def withMaxBytes (loader : DirectoryLoader) (maxBytes : Nat) : DirectoryLoader :=
  { loader with maxBytes := maxBytes }

def ofConfig? (config : BlobConfig) : Option DirectoryLoader :=
  config.directory.map fun root => (new root).withMaxBytes config.maxBlobBytes

/-- The path of the file that a reference names. References that could lead out of the directory
    are refused before anything is looked at. -/
def resolve (loader : DirectoryLoader) (reference : String) : Except BlobFault String :=
  if reference = "" then .error .emptyReference
  else if FilePath.isAbsolute reference ∨ .parent ∈ FilePath.parts reference then
    .error .outsideDirectory
  else .ok (FilePath.join loader.root reference)

def permit (loader : DirectoryLoader) (metadata : FileMetadata) : Except BlobFault Unit :=
  if metadata.isFile = false then .error .notAFile
  else if metadata.length > loader.maxBytes then
    .error (.tooLarge metadata.length loader.maxBytes)
  else .ok ()

section
variable {m : Type → Type} [Monad m]

def fetchAt (loader : DirectoryLoader) (files : FileSystem m) (path : String) :
    m (Except BlobFault Blob) := do
  match ← files.metadata path with
  | .error fault => return .error (.unreadable fault)
  | .ok metadata =>
    match loader.permit metadata with
    | .error fault => return .error fault
    | .ok () =>
      match ← files.read path with
      | .error fault => return .error (.unreadable fault)
      | .ok content => return .ok (.ofContent (BlobLoader.contentTypeFor path) content)

def fetch (loader : DirectoryLoader) (files : FileSystem m) (reference : String) :
    m (Except BlobFault Blob) :=
  match loader.resolve reference with
  | .error fault => return .error fault
  | .ok path => loader.fetchAt files path

def load (loader : DirectoryLoader) (files : FileSystem m) (reference : String) :
    m (Except AuditError Blob) :=
  Except.mapError (.blobFetchFailed reference) <$> loader.fetch files reference

end

def loader (directory : DirectoryLoader) (files : FileView) : BlobLoader := fun reference =>
  (directory.load (.ofView files) reference).run

end DirectoryLoader
end DocAudit
