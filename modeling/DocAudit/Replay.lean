import DocAudit.BlobLoader
import DocAudit.Change
import DocAudit.KeyPath.Cache

/- Replaying an update on a body: first the values are set, batch by batch, then values are removed,
   then blobs are put in place. The first step that cannot be done ends the replay. Paths are read
   through a cache, which is handed on. -/
namespace DocAudit

inductive ReplayStep where
  | set (path : String) (value : Node)
  | remove (path : String)
  | putBlob (path reference : String)

def Change.steps (change : Change) : List ReplayStep :=
  change.updates.flatMap (fun batch => batch.entries.map fun entry => .set entry.1 entry.2) ++
    change.removals.map .remove ++
    change.blobs.entries.map fun entry => .putBlob entry.1 entry.2

namespace Replay

def writeAt (cache : PathCache) (body : Node) (path : String) (value : Node) :
    Except AuditError Node × PathCache :=
  match cache.path path with
  | (.error error, cache) => (.error (.invalidPath error), cache)
  | (.ok path, cache) =>
    match body.write path value with
    | (body, .ok ()) => (.ok body, cache)
    | (_, .error error) => (.error (.edit error), cache)

def removeAt (cache : PathCache) (body : Node) (path : String) :
    Except AuditError Node × PathCache :=
  match cache.path path with
  | (.error error, cache) => (.error (.invalidPath error), cache)
  | (.ok path, cache) =>
    match body.remove path with
    | (body, .ok _) => (.ok body, cache)
    | (_, .error error) => (.error (.edit error), cache)

/-- A blob is loaded before its path is read. -/
def step (loader : BlobLoader) (cache : PathCache) (body : Node) :
    ReplayStep → Except AuditError Node × PathCache
  | .set path value => writeAt cache body path value
  | .remove path => removeAt cache body path
  | .putBlob path reference =>
    match loader reference with
    | .error error => (.error error, cache)
    | .ok blob => writeAt cache body path (.blob blob)

def run (loader : BlobLoader) (cache : PathCache) (body : Node) :
    List ReplayStep → Except AuditError Node × PathCache
  | [] => (.ok body, cache)
  | first :: rest =>
    match step loader cache body first with
    | (.ok body, cache) => run loader cache body rest
    | (.error error, cache) => (.error error, cache)

end Replay

def Change.apply (change : Change) (loader : BlobLoader) (cache : PathCache) (body : Node) :
    Except AuditError Node × PathCache :=
  Replay.run loader cache body change.steps

end DocAudit
