import DocAudit.KeyPath

/- The written paths and their meanings, as a grammar. `Spelling s cs` says that the characters `s`
   are a path with the components `cs`. One path may have several spellings. -/
namespace DocAudit
namespace KeyPath

/-- A character of a name: any character after a backslash, or one that is not special. -/
inductive NameItem : List Char → Char → Prop where
  | escaped (c : Char) : NameItem ['\\', c] c
  | plain (c : Char) (ordinary : c ∉ ['.', '[', ']', '\\']) : NameItem [c] c

inductive NameSpelling : List Char → List Char → Prop where
  | one {s : List Char} {c : Char} (item : NameItem s c) : NameSpelling s [c]
  | more {s t : List Char} {c : Char} {name : List Char} (item : NameItem s c)
      (rest : NameSpelling t name) : NameSpelling (s ++ t) (c :: name)

def digitsValue : List Char → Nat
  | [] => 0
  | c :: rest => (c.toNat - '0'.toNat) * Nat.pow 10 rest.length + digitsValue rest

def Digits (s : List Char) : Prop := s ≠ [] ∧ ∀ c ∈ s, '0' ≤ c ∧ c ≤ '9'

inductive IndexSpelling : List Char → Int → Prop where
  | unsigned {s : List Char} (digits : Digits s) (fits : Word.IsSigned (digitsValue s)) :
      IndexSpelling ('[' :: (s ++ [']'])) (digitsValue s)
  | negative {s : List Char} (digits : Digits s) (fits : Word.IsSigned (-digitsValue s)) :
      IndexSpelling ('[' :: '-' :: (s ++ [']'])) (-digitsValue s)

inductive DelimitedSpelling : List Char → KeyPath → Prop where
  | nil : DelimitedSpelling [] []
  | property {s t name : List Char} {cs : KeyPath} (spelled : NameSpelling s name)
      (rest : DelimitedSpelling t cs) :
      DelimitedSpelling ('.' :: (s ++ t)) (.property (String.ofList name) :: cs)
  | index {s t : List Char} {i : Int} {cs : KeyPath} (spelled : IndexSpelling s i)
      (rest : DelimitedSpelling t cs) : DelimitedSpelling (s ++ t) (.index i :: cs)

inductive Spelling : List Char → KeyPath → Prop where
  | delimited {s : List Char} {cs : KeyPath} (spelled : DelimitedSpelling s cs)
      (some_component : cs ≠ []) : Spelling s cs
  | rooted {s : List Char} {cs : KeyPath} (spelled : DelimitedSpelling s cs)
      (some_component : cs ≠ []) : Spelling ('$' :: s) cs
  | bare {s t name : List Char} {cs : KeyPath} (spelled : NameSpelling s name)
      (no_root_mark : s.head? ≠ some '$') (rest : DelimitedSpelling t cs) :
      Spelling (s ++ t) (.property (String.ofList name) :: cs)

end KeyPath
end DocAudit
