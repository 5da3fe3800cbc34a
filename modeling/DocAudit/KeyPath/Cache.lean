import DocAudit.KeyPath.Parser
import DocAudit.Table

/- Paths that have been read, kept by their written form. A path at fault is not kept. -/
namespace DocAudit

structure PathCache where
  paths : Table String KeyPath

namespace PathCache

def empty : PathCache := ⟨Table.empty⟩

def size (cache : PathCache) : Nat := cache.paths.size

def isEmpty (cache : PathCache) : Bool := cache.paths.isEmpty

def path (cache : PathCache) (written : String) : Except KeyPath.ParseError KeyPath × PathCache :=
  match cache.paths.find? written with
  | some path => (.ok path, cache)
  | none =>
    match KeyPath.parse written with
    | .ok path => (.ok path, ⟨cache.paths.insert written path⟩)
    | .error error => (.error error, cache)

end PathCache
end DocAudit
