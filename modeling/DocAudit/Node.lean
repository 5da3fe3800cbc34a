import DocAudit.Blob

/- Document bodies: trees of dictionaries, arrays and leaves. A blob is a leaf, although its JSON
   form is an object. The entries of a dictionary stand in ascending order of their keys, each key
   once; `Ordered` says so of a whole tree. A missing location is no node at all. -/
namespace DocAudit

inductive Node where
  | dictionary (entries : List (String × Node))
  | array (items : List Node)
  | null
  | boolean (b : Bool)
  | number (n : Number)
  | string (s : String)
  | blob (b : Blob)

inductive Kind where
  | dictionary
  | array
  | null
  | boolean
  | number
  | string
  | blob
deriving DecidableEq, Repr

def Kind.name : Kind → String
  | .dictionary => "dictionary"
  | .array => "array"
  | .null => "null"
  | .boolean => "boolean"
  | .number => "number"
  | .string => "string"
  | .blob => "blob"

namespace Node

def kind : Node → Kind
  | .dictionary _ => .dictionary
  | .array _ => .array
  | .null => .null
  | .boolean _ => .boolean
  | .number _ => .number
  | .string _ => .string
  | .blob _ => .blob

def isNull : Node → Bool
  | .null => true
  | _ => false

def isDictionary : Node → Bool
  | .dictionary _ => true
  | _ => false

def isArray : Node → Bool
  | .array _ => true
  | _ => false

def isContainer (node : Node) : Bool := node.isDictionary || node.isArray

def entries? : Node → Option (List (String × Node))
  | .dictionary entries => some entries
  | _ => none

def items? : Node → Option (List Node)
  | .array items => some items
  | _ => none

def string? : Node → Option String
  | .string s => some s
  | _ => none

def boolean? : Node → Option Bool
  | .boolean b => some b
  | _ => none

def int64? : Node → Option Int
  | .number n => n.toInt64?
  | _ => none

def float? : Node → Option Binary64
  | .number n => n.toFloat?
  | _ => none

def blob? : Node → Option Blob
  | .blob b => some b
  | _ => none

def member? (key : String) : Node → Option Node
  | .dictionary entries => Entries.find? key entries
  | _ => none

def element? (index : Nat) : Node → Option Node
  | .array items => items[index]?
  | _ => none

def setMember? (node : Node) (key : String) (value : Node) : Option (Node × Option Node) :=
  match node with
  | .dictionary entries =>
    some (.dictionary (Entries.insert key value entries), Entries.find? key entries)
  | _ => none

def push? (node value : Node) : Option Node :=
  match node with
  | .array items => some (.array (items ++ [value]))
  | _ => none

def size? : Node → Option Nat
  | .dictionary entries => some entries.length
  | .array items => some items.length
  | _ => none

def isEmpty (node : Node) : Bool := node.size? == some 0

mutual

/-- Structural equality. Numbers are compared within one representation, blobs with their
    content. -/
def identical : Node → Node → Bool
  | .dictionary as, .dictionary bs => identicalEntries as bs
  | .array as, .array bs => identicalItems as bs
  | .null, .null => true
  | .boolean a, .boolean b => a == b
  | .number a, .number b => a.identical b
  | .string a, .string b => a == b
  | .blob a, .blob b => a == b
  | _, _ => false

def identicalItems : List Node → List Node → Bool
  | [], [] => true
  | a :: as, b :: bs => identical a b && identicalItems as bs
  | _, _ => false

def identicalEntries : List (String × Node) → List (String × Node) → Bool
  | [], [] => true
  | (j, a) :: as, (k, b) :: bs => j == k && identical a b && identicalEntries as bs
  | _, _ => false

end

mutual

def Ordered : Node → Prop
  | .dictionary entries => Entries.Ascending entries ∧ OrderedEntries entries
  | .array items => OrderedItems items
  | _ => True

def OrderedItems : List Node → Prop
  | [] => True
  | item :: rest => Ordered item ∧ OrderedItems rest

def OrderedEntries : List (String × Node) → Prop
  | [] => True
  | (_, value) :: rest => Ordered value ∧ OrderedEntries rest

end

mutual

/-- Every blob of the tree carries its content. -/
def Loaded : Node → Prop
  | .dictionary entries => LoadedEntries entries
  | .array items => LoadedItems items
  | .blob b => b.content ≠ none
  | _ => True

def LoadedItems : List Node → Prop
  | [] => True
  | item :: rest => Loaded item ∧ LoadedItems rest

def LoadedEntries : List (String × Node) → Prop
  | [] => True
  | (_, value) :: rest => Loaded value ∧ LoadedEntries rest

end
end Node
end DocAudit
