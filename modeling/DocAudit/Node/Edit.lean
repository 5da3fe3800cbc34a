import DocAudit.KeyPath
import DocAudit.Limit
import DocAudit.Node

/- Reading, writing and removing at a location of a tree. A write creates the containers that are
   missing on its way, each of the kind that the next component steps into, fills an array up with
   nulls when the index lies beyond its end, and takes a null element of an array on its way for a
   missing one. Edits happen in place: besides its outcome each yields the tree it leaves behind. -/
namespace DocAudit

inductive EditFault where
  | typeMismatch (expected found : Kind)
  | negativeIndex (i : Int)
  | limit (error : LimitError)
deriving DecidableEq, Repr

structure EditError where
  path : KeyPath
  fault : EditFault
deriving DecidableEq, Repr

def EditError.message (error : EditError) : String :=
  let path := "'" ++ error.path.render ++ "'"
  match error.fault with
  | .typeMismatch expected found =>
    "type mismatch at " ++ path ++ ": expected " ++ expected.name ++ ", found " ++ found.name
  | .negativeIndex i => "negative array index " ++ toString i ++ " in " ++ path
  | .limit error => "limit exceeded in " ++ path ++ ": " ++ error.message

def Component.container : Component → Kind
  | .property _ => .dictionary
  | .index _ => .array

namespace Node

/-- The value at a location. A negative index and a node of another kind lead nowhere. -/
def get? : Node → KeyPath → Option Node
  | node, [] => some node
  | .dictionary entries, .property key :: rest =>
    (Entries.find? key entries).bind fun child => get? child rest
  | .array items, .index i :: rest =>
    if 0 ≤ i then items[i.toNat]?.bind fun child => get? child rest else none
  | _, _ => none

def checkIndex (i : Int) : Except EditFault Unit :=
  if i < 0 then .error (.negativeIndex i)
  else
    match Limit.checkArrayIndex i.toNat with
    | .ok () => .ok ()
    | .error error => .error (.limit error)

def checkIndices : KeyPath → Except EditFault Unit
  | [] => .ok ()
  | .property _ :: rest => checkIndices rest
  | .index i :: rest =>
    match checkIndex i with
    | .ok () => checkIndices rest
    | .error fault => .error fault

def checkPath (path : KeyPath) : Except EditFault Unit :=
  match Limit.checkPathLength path.length with
  | .ok () => checkIndices path
  | .error error => .error (.limit error)

def emptyFor : KeyPath → Node
  | [] => .null
  | .property _ :: _ => .dictionary []
  | .index _ :: _ => .array []

def setElement (items : List Node) (index : Nat) (value : Node) : List Node :=
  if index < items.length then items.set index value
  -- the places between the last element and the new one are filled with nulls
  else items ++ (List.replicate (index - items.length) .null ++ [value])

def entryFor (entries : List (String × Node)) (key : String) (rest : KeyPath) : Node :=
  (Entries.find? key entries).getD (emptyFor rest)

def elementFor (items : List Node) (index : Nat) (rest : KeyPath) : Node :=
  match items[index]? with
  | none => emptyFor rest
  | some item => if item.isNull then emptyFor rest else item

def place : Node → KeyPath → Node → Node × Except EditFault Unit
  | _, [], value => (value, .ok ())
  | .dictionary entries, .property key :: rest, value =>
    let (child, outcome) := place (entryFor entries key rest) rest value
    (.dictionary (Entries.insert key child entries), outcome)
  | .array items, .index i :: rest, value =>
    let (child, outcome) := place (elementFor items i.toNat rest) rest value
    (.array (setElement items i.toNat child), outcome)
  | node, component :: _, _ => (node, .error (.typeMismatch component.container node.kind))

/-- Removes along a path whose indices have been checked. What a write would have to create is not
    there, and nothing is created. -/
def withdraw : Node → KeyPath → Node × Except EditFault (Option Node)
  | node, [] => (.null, .ok (some node))
  | .dictionary entries, [.property key] =>
    (.dictionary (Entries.erase key entries), .ok (Entries.find? key entries))
  | .array items, [.index i] => (.array (items.eraseIdx i.toNat), .ok items[i.toNat]?)
  | .dictionary entries, .property key :: rest =>
    match Entries.find? key entries with
    | none => (.dictionary entries, .ok none)
    | some child =>
      let (child, outcome) := withdraw child rest
      (.dictionary (Entries.insert key child entries), outcome)
  | .array items, .index i :: rest =>
    match items[i.toNat]? with
    | none => (.array items, .ok none)
    | some child =>
      -- a write would put a container in place of the null, so nothing is below it
      if child.isNull then (.array items, .ok none)
      else
        let (child, outcome) := withdraw child rest
        (.array (items.set i.toNat child), outcome)
  | node, component :: _ => (node, .error (.typeMismatch component.container node.kind))

def outcomeAt {α : Type} (path : KeyPath) : Except EditFault α → Except EditError α
  | .ok value => .ok value
  | .error fault => .error ⟨path, fault⟩

/-- Sets the value at a location: the tree left behind, and whether it could be done. -/
def write (root : Node) (path : KeyPath) (value : Node) : Node × Except EditError Unit :=
  match checkPath path with
  | .error fault => (root, .error ⟨path, fault⟩)
  | .ok () =>
    let (tree, outcome) := place root path value
    (tree, outcomeAt path outcome)

def remove (root : Node) (path : KeyPath) : Node × Except EditError (Option Node) :=
  match checkPath path with
  | .error fault => (root, .error ⟨path, fault⟩)
  | .ok () =>
    let (tree, outcome) := withdraw root path
    (tree, outcomeAt path outcome)

end Node
end DocAudit
