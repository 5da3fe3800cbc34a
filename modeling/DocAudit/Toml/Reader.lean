import DocAudit.Toml.Quoted
import DocAudit.Toml.Scalar

/- Reading a TOML document. A table comes about in one of three ways: by a header of its own, on the
   way to the table of a header, or on the way of a dotted key. How it came about decides what may
   still be added to it; no key is given twice. -/
namespace DocAudit
namespace Toml

inductive Origin where
  | header
  | aboveHeader
  | dottedKey
deriving DecidableEq, Repr

inductive Item where
  | closed (value : Toml)
  | table (origin : Origin) (entries : List (String × Item))
  | tables (earlier : List (List (String × Item))) (last : List (String × Item))

namespace Item

mutual

def toToml : Item → Toml
  | .closed value => value
  | .table _ entries => .table (entriesToToml entries)
  | .tables earlier last => .array (tablesToToml earlier ++ [.table (entriesToToml last)])

def entriesToToml : List (String × Item) → List (String × Toml)
  | [] => []
  | (key, item) :: rest => (key, toToml item) :: entriesToToml rest

def tablesToToml : List (List (String × Item)) → List Toml
  | [] => []
  | entries :: rest => .table (entriesToToml entries) :: tablesToToml rest

end

/-- Changes the table that a path leads to. Tables on the way are made where there are none, with
    the given origin; a dotted key does not go through a table that has a header. -/
def within (origin : Origin) (change : Origin → List (String × Item) → Option (List (String × Item)))
    : List String → Origin → List (String × Item) → Option (List (String × Item))
  | [], here, entries => change here entries
  | key :: rest, _, entries =>
    match Entries.find? key entries with
    | none =>
      (within origin change rest origin []).map fun below =>
        Entries.insert key (.table origin below) entries
    | some (.closed _) => none
    | some (.table existing below) =>
      if origin = .dottedKey ∧ existing = .header then none
      else
        (within origin change rest existing below).map fun below =>
          Entries.insert key (.table existing below) entries
    | some (.tables earlier last) =>
      (within origin change rest .header last).map fun last =>
        Entries.insert key (.tables earlier last) entries

/-- Gives a key its value; the keys before it lead to its table, which a dotted key must have made
    itself. -/
def addValue (path : List String) (key : String) (value : Toml) (origin : Origin)
    (entries : List (String × Item)) : Option (List (String × Item)) :=
  let add (here : Origin) (entries : List (String × Item)) : Option (List (String × Item)) :=
    if (here == .dottedKey) == path.isEmpty || Entries.contains key entries then none
    else some (Entries.insert key (.closed value) entries)
  within .dottedKey add path origin entries

def openTable (path : List String) (key : String) (root : List (String × Item)) :
    Option (List (String × Item)) :=
  let add (_ : Origin) (entries : List (String × Item)) : Option (List (String × Item)) :=
    match Entries.find? key entries with
    | none => some (Entries.insert key (.table .header []) entries)
    | some (.table .aboveHeader below) =>
      some (Entries.insert key (.table .header below) entries)
    | some _ => none
  within .aboveHeader add path .header root

def openListed (path : List String) (key : String) (root : List (String × Item)) :
    Option (List (String × Item)) :=
  let add (_ : Origin) (entries : List (String × Item)) : Option (List (String × Item)) :=
    match Entries.find? key entries with
    | none => some (Entries.insert key (.tables [] []) entries)
    | some (.tables earlier last) =>
      some (Entries.insert key (.tables (earlier ++ [last]) []) entries)
    | some _ => none
  within .aboveHeader add path .header root

end Item

def skipBlanks (input : List Char) : List Char := input.dropWhile isBlank

def skipTrivia (inComment : Bool) : List Char → List Char
  | [] => []
  | '\r' :: '\n' :: rest => skipTrivia false rest
  | c :: rest =>
    if c == '\n' then skipTrivia false rest
    else if inComment then if isPlain c then skipTrivia true rest else c :: rest
    else if isBlank c then skipTrivia false rest
    else if c == '#' then skipTrivia true rest
    else c :: rest

def isBareKeyChar (c : Char) : Bool := c.isAlphanum || c == '_' || c == '-'

def readKeyPart? (input : List Char) : Option (String × List Char) :=
  match input.takeWhile isBareKeyChar with
  | [] => readShort? input
  | key => some (String.ofList key, input.drop key.length)

def greatestDepth : Nat := 79

def readKey? : Nat → List Char → Option (List String × String × List Char)
  | 0, _ => none
  | parts + 1, input =>
    match readKeyPart? (skipBlanks input) with
    | none => none
    | some (part, rest) =>
      match skipBlanks rest with
      | '.' :: rest => (readKey? parts rest).map fun (path, key, rest) => (part :: path, key, rest)
      | rest => some ([], part, rest)

mutual

/-- A value. The first argument of these readers bounds their nested steps; twice the length of the
    input is never too little. The second one is the number of arrays and inline tables that may
    still be opened inside each other. -/
def readValue? : Nat → Nat → List Char → Option (Toml × List Char)
  | 0, _, _ => none
  | steps + 1, depth, input =>
    match input, depth with
    | '"' :: _, _ => (readQuoted? input).map fun (s, rest) => (.string s, rest)
    | '\'' :: _, _ => (readQuoted? input).map fun (s, rest) => (.string s, rest)
    | '[' :: _, 0 => none
    | '[' :: rest, depth + 1 => readItems? steps depth [] rest
    | '\x7b' :: _, 0 => none
    | '\x7b' :: rest, depth + 1 =>
      match skipBlanks rest with
      | '\x7d' :: rest => some (.table [], rest)
      | rest => readInline? steps depth [] rest
    | _, _ => readScalar? input

def readItems? : Nat → Nat → List Toml → List Char → Option (Toml × List Char)
  | 0, _, _, _ => none
  | steps + 1, depth, before, input =>
    match skipTrivia false input with
    | ']' :: rest => some (.array before.reverse, rest)
    | start =>
      match readValue? steps depth start with
      | none => none
      | some (item, rest) =>
        match skipTrivia false rest with
        | ',' :: rest => readItems? steps depth (item :: before) rest
        | ']' :: rest => some (.array (item :: before).reverse, rest)
        | _ => none

def readInline? : Nat → Nat → List (String × Item) → List Char → Option (Toml × List Char)
  | 0, _, _, _ => none
  | steps + 1, depth, before, input =>
    match readPair? steps depth input with
    | none => none
    | some (path, key, value, rest) =>
      match Item.addValue path key value .header before with
      | none => none
      | some entries =>
        match skipBlanks rest with
        | ',' :: rest => readInline? steps depth entries rest
        | '\x7d' :: rest => some (.table (Item.entriesToToml entries), rest)
        | _ => none

def readPair? : Nat → Nat → List Char → Option (List String × String × Toml × List Char)
  | 0, _, _ => none
  | steps + 1, depth, input =>
    match readKey? greatestDepth input with
    | some (path, key, '=' :: rest) =>
      (readValue? steps depth (skipBlanks rest)).map fun (value, rest) => (path, key, value, rest)
    | _ => none

end

def endLine? (input : List Char) : Option (List Char) :=
  let rest := match skipBlanks input with
    | '#' :: rest => rest.dropWhile isPlain
    | rest => rest
  if rest.isEmpty then some [] else newline? rest

structure Draft where
  root : List (String × Item)
  header : List String

namespace Draft

def openTable (draft : Draft) (path : List String) (key : String) : Option Draft :=
  (Item.openTable path key draft.root).map fun root => ⟨root, path ++ [key]⟩

def openListed (draft : Draft) (path : List String) (key : String) : Option Draft :=
  (Item.openListed path key draft.root).map fun root => ⟨root, path ++ [key]⟩

def addPair (draft : Draft) (path : List String) (key : String) (value : Toml) : Option Draft :=
  (Item.within .aboveHeader (Item.addValue path key value) draft.header .header draft.root).map
    fun root => { draft with root := root }

end Draft

def readLine? (steps : Nat) (draft : Draft) (input : List Char) : Option (Draft × List Char) :=
  match input with
  | [] => some (draft, [])
  | '#' :: _ => (endLine? input).map fun rest => (draft, rest)
  | '\n' :: _ => (endLine? input).map fun rest => (draft, rest)
  | '\r' :: _ => (endLine? input).map fun rest => (draft, rest)
  | '[' :: '[' :: rest =>
    match readKey? greatestDepth rest with
    | some (path, key, ']' :: ']' :: rest) => do
      let draft ← draft.openListed path key
      let rest ← endLine? rest
      return (draft, rest)
    | _ => none
  | '[' :: rest =>
    match readKey? greatestDepth rest with
    | some (path, key, ']' :: rest) => do
      let draft ← draft.openTable path key
      let rest ← endLine? rest
      return (draft, rest)
    | _ => none
  | _ => do
    let (path, key, value, rest) ← readPair? steps greatestDepth input
    let draft ← draft.addPair path key value
    let rest ← endLine? rest
    return (draft, rest)

def readLines? : Nat → Draft → List Char → Option Draft
  | 0, _, _ => none
  | steps + 1, draft, input =>
    if input.isEmpty then some draft
    else
      match readLine? steps draft (skipBlanks input) with
      | none => none
      | some (draft, rest) => readLines? steps draft rest

def byteOrderMark : Char := '\uFEFF'

def parse? (text : String) : Option (List (String × Toml)) :=
  let input := match text.toList with
    | c :: rest => if c = byteOrderMark then rest else c :: rest
    | [] => []
  (readLines? (2 * input.length + 3) ⟨[], []⟩ input).map fun draft =>
    Item.entriesToToml draft.root

end Toml
end DocAudit
