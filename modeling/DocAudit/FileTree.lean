import DocAudit.FilePath

/- A tree of directories and files, and what the operating system answers when a path is looked up
   in it. Every segment of a path, also an empty one or a dot, asks for a directory to stand in; two
   dots lead to the directory above, and from the top they lead nowhere else. A name must not be
   longer than 255 bytes and a path must be shorter than 4096. -/
namespace DocAudit

inductive FileFault where
  | notFound
  | notADirectory
  | isADirectory
  | nameTooLong
  | nulInName
  | invalidUtf8
deriving DecidableEq, Repr

def FileFault.message : FileFault → String
  | .notFound => "No such file or directory (os error 2)"
  | .notADirectory => "Not a directory (os error 20)"
  | .isADirectory => "Is a directory (os error 21)"
  | .nameTooLong => "File name too long (os error 36)"
  | .nulInName => "file name contained an unexpected NUL byte"
  | .invalidUtf8 => "stream did not contain valid UTF-8"

structure FileMetadata where
  isFile : Bool
  length : Nat
deriving DecidableEq, Repr

inductive FileEntry where
  | directory
  | file (content : List UInt8)
deriving DecidableEq, Repr

namespace FileEntry

def metadata : FileEntry → FileMetadata
  | .directory => ⟨false, 0⟩
  | .file content => ⟨true, content.length⟩

def content : FileEntry → Except FileFault (List UInt8)
  | .directory => .error .isADirectory
  | .file content => .ok content

end FileEntry

inductive FileTree where
  | file (content : List UInt8)
  | directory (entries : List (String × FileTree))

namespace FileTree

def maxNameBytes : Nat := 255
def pathBytes : Nat := 4096

def entry : FileTree → FileEntry
  | .file content => .file content
  | .directory _ => .directory

def child? (name : String) : List (String × FileTree) → Option FileTree
  | [] => none
  | (key, tree) :: rest => if name = key then some tree else child? name rest

/-- Follows segments from a tree that lies below the given directories, the nearest of them
    first. -/
def walkBelow : List FileTree → FileTree → List String → Except FileFault FileTree
  | _, tree, [] => .ok tree
  | _, .file _, _ :: _ => .error .notADirectory
  | above, .directory entries, segment :: rest =>
    if segment = "" ∨ segment = "." then walkBelow above (.directory entries) rest
    else if segment = ".." then
      match above with
      | [] => walkBelow [] (.directory entries) rest
      | parent :: above => walkBelow above parent rest
    else if segment.utf8ByteSize > maxNameBytes then .error .nameTooLong
    else
      match child? segment entries with
      | none => .error .notFound
      | some tree => walkBelow (.directory entries :: above) tree rest

def walk (tree : FileTree) (segments : List String) : Except FileFault FileTree :=
  walkBelow [] tree segments

def look (tree : FileTree) (path : String) : Except FileFault FileEntry :=
  if path.toList.contains '\x00' then .error .nulInName
  else if path = "" then .error .notFound
  else if path.utf8ByteSize ≥ pathBytes then .error .nameTooLong
  else
    match tree.walk (Segments.split FilePath.separator path) with
    | .ok found => .ok found.entry
    | .error fault => .error fault

def setChild (name : String) (tree : FileTree) (entries : List (String × FileTree)) :
    List (String × FileTree) :=
  (name, tree) :: entries.filter fun entry => entry.1 ≠ name

/-- The tree with something put at the end of a list of names. Directories on the way there are made
    where there are none. -/
def put (place : FileTree) : FileTree → List String → FileTree
  | _, [] => place
  | .file _, name :: rest => .directory [(name, put place (.directory []) rest)]
  | .directory entries, name :: rest =>
    let below := (child? name entries).getD (.directory [])
    .directory (setChild name (put place below rest) entries)

def makeDirectory (tree : FileTree) (names : List String) : FileTree :=
  match tree.walk names with
  | .ok _ => tree
  | .error _ => put (.directory []) tree names

def read (tree : FileTree) (path : String) : Except FileFault (List UInt8) :=
  (tree.look path).bind FileEntry.content

def names (path : String) : List String :=
  (FilePath.parts path).foldl (fun names part =>
    match part with
    | .name s => names ++ [s]
    | .parent => names.dropLast) []

def write (tree : FileTree) (path : String) (content : List UInt8) : Except FileFault FileTree :=
  match tree.look path with
  | .ok .directory => .error .isADirectory
  | .ok (.file _) => .ok (put (.file content) tree (names path))
  | .error .notFound =>
    match tree.walk (Segments.split FilePath.separator path).dropLast with
    | .ok (.directory _) => .ok (put (.file content) tree (names path))
    | .ok (.file _) => .error .notADirectory
    | .error fault => .error fault
  | .error fault => .error fault

end FileTree
end DocAudit
