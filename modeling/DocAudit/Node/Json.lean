import DocAudit.Json.Printer
import DocAudit.Json.Reader
import DocAudit.Node

/- A document body and its JSON form. A blob becomes the object of its metadata, so its content does
   not appear there; read back, an object that describes a blob becomes a blob without content.
   `Canonical` trees have no dictionary that would be taken for a blob in this way. -/
namespace DocAudit
namespace Node

mutual

def toJson : Node → Json
  | .dictionary entries => .object (entriesToJson entries)
  | .array items => .array (itemsToJson items)
  | .null => .null
  | .boolean b => .boolean b
  | .number n => .number n
  | .string s => .string s
  | .blob b => b.toJson

def itemsToJson : List Node → List Json
  | [] => []
  | item :: rest => toJson item :: itemsToJson rest

def entriesToJson : List (String × Node) → List (String × Json)
  | [] => []
  | (key, value) :: rest => (key, toJson value) :: entriesToJson rest

end

mutual

def ofJson : Json → Node
  | .null => .null
  | .boolean b => .boolean b
  | .number n => .number n
  | .string s => .string s
  | .array items => .array (itemsOfJson items)
  | .object members =>
    match Blob.ofMembers? members with
    | some b => .blob b
    | none => .dictionary (entriesOfJson members)

def itemsOfJson : List Json → List Node
  | [] => []
  | item :: rest => ofJson item :: itemsOfJson rest

def entriesOfJson : List (String × Json) → List (String × Node)
  | [] => []
  | (name, value) :: rest => (name, ofJson value) :: entriesOfJson rest

end

def text (node : Node) : String := node.toJson.text

/-- What is left of a tree that is written as JSON text and read again. -/
def reloaded? (node : Node) : Option Node := (Json.parse? node.text).map ofJson

def ofFloat? : Option Binary64 → Node
  | some x => .number (.float x)
  | none => .null

/-- A dictionary that is marked as a blob and has a digest reads like blob metadata. -/
def LooksLikeBlob (entries : List (String × Node)) : Prop :=
  Entries.find? Blob.typeName entries = some (.string Blob.typeMark) ∧
    ∃ digest, Entries.find? Blob.digestName entries = some (.string digest)

mutual

def Canonical : Node → Prop
  | .dictionary entries => ¬ LooksLikeBlob entries ∧ CanonicalEntries entries
  | .array items => CanonicalItems items
  | _ => True

def CanonicalItems : List Node → Prop
  | [] => True
  | item :: rest => Canonical item ∧ CanonicalItems rest

def CanonicalEntries : List (String × Node) → Prop
  | [] => True
  | (_, value) :: rest => Canonical value ∧ CanonicalEntries rest

end

mutual

def withoutContent : Node → Node
  | .dictionary entries => .dictionary (entriesWithoutContent entries)
  | .array items => .array (itemsWithoutContent items)
  | .blob b => .blob b.withoutContent
  | node => node

def itemsWithoutContent : List Node → List Node
  | [] => []
  | item :: rest => withoutContent item :: itemsWithoutContent rest

def entriesWithoutContent : List (String × Node) → List (String × Node)
  | [] => []
  | (key, value) :: rest => (key, withoutContent value) :: entriesWithoutContent rest

end
end Node
end DocAudit
