import DocAudit.Word

/- A key path names a location in a document by the steps that lead there from the root: the key of
   a dictionary entry or the index of an array element. It is written with a dot before a key and
   brackets around an index, as in `rooms[3].beds`; the first key has no dot before it. -/
namespace DocAudit

inductive Component where
  | property (name : String)
  | index (i : Int)
deriving DecidableEq, Repr

abbrev KeyPath := List Component

namespace Component

def isProperty : Component → Bool
  | .property _ => true
  | .index _ => false

def SameSort (a b : Component) : Prop := a.isProperty = b.isProperty

/-- What a written path can name: keys that are not empty and indices of the signed 64-bit range. -/
def Writable : Component → Prop
  | .property name => name ≠ ""
  | .index i => Word.IsSigned i

def escapeChar : Char := '\\'
def rootChar : Char := '$'

def isSpecial (c : Char) : Bool := c == '.' || c == '[' || c == ']' || c == escapeChar

def escaped (c : Char) : List Char := if isSpecial c then [escapeChar, c] else [c]

def escapedFirst (c : Char) : List Char := if c = rootChar then [escapeChar, c] else escaped c

def leadingName : List Char → List Char
  | [] => []
  | c :: rest => escapedFirst c ++ rest.flatMap escaped

def indexText (i : Int) : List Char :=
  if i < 0 then '-' :: Nat.toDigits 10 i.natAbs else Nat.toDigits 10 i.natAbs

def chars : Component → List Char
  | .property name => '.' :: name.toList.flatMap escaped
  | .index i => '[' :: (indexText i ++ [']'])

def leadingChars : Component → List Char
  | .property name => leadingName name.toList
  | .index i => '[' :: (indexText i ++ [']'])

def text (component : Component) : String := String.ofList component.chars

end Component

namespace KeyPath

def chars : KeyPath → List Char
  | [] => [Component.rootChar]
  | first :: rest => first.leadingChars ++ rest.flatMap Component.chars

/-- The written form of a path; the root itself is written `$`. An empty key leaves no trace in its
    place, so only paths of writable components can be read back. -/
def render (path : KeyPath) : String := String.ofList path.chars

def ofComponents? (components : List Component) : Option KeyPath :=
  if components.isEmpty || components.contains (.property "") then none else some components

end KeyPath
end DocAudit
