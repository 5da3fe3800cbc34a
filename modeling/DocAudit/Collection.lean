import DocAudit.Segments

/- Collections and document keys. A collection is named by its scope and its own name, written
   `scope.name`; a name alone means the collection of a default scope. A document key is a
   collection together with a document id. Keys are ordered by scope, then name, then id. -/
namespace DocAudit

structure CollectionName where
  scope : String
  name : String
deriving DecidableEq, Repr

inductive CollectionFault where
  | partCount
  | emptyScope
  | emptyName
deriving DecidableEq, Repr

def CollectionFault.message : CollectionFault → String
  | .partCount => "expected 'name' or 'scope.name'"
  | .emptyScope => "empty scope name"
  | .emptyName => "empty collection name"

structure CollectionError where
  name : String
  fault : CollectionFault
deriving DecidableEq, Repr

def CollectionError.message (error : CollectionError) : String :=
  "Invalid collection name '" ++ error.name ++ "': " ++ error.fault.message

namespace CollectionName

def separator : Char := '.'
def defaultScope : String := "_default"

def checked (written scope name : String) : Except CollectionError CollectionName :=
  if scope = "" then .error ⟨written, .emptyScope⟩
  else if name = "" then .error ⟨written, .emptyName⟩
  else .ok ⟨scope, name⟩

/-- Reads `name` or `scope.name`. The given scope is that of a name without one. -/
def parseIn (scope written : String) : Except CollectionError CollectionName :=
  match Segments.split separator written with
  | [name] => checked written scope name
  | [scope, name] => checked written scope name
  | _ => .error ⟨written, .partCount⟩

def parse (written : String) : Except CollectionError CollectionName :=
  parseIn defaultScope written

def text (collection : CollectionName) : String :=
  collection.scope ++ String.singleton separator ++ collection.name

end CollectionName

structure DocumentKey where
  collection : CollectionName
  id : String
deriving DecidableEq, Repr

namespace DocumentKey

def text (key : DocumentKey) : String :=
  "Document '" ++ key.id ++ "' in '" ++ key.collection.text ++ "'"

def order : DocumentKey → DocumentKey → Ordering :=
  compareLex (compareOn fun key => key.collection.scope)
    (compareLex (compareOn fun key => key.collection.name) (compareOn fun key => key.id))

instance : Ord DocumentKey := ⟨order⟩

instance : Std.TransOrd DocumentKey :=
  inferInstanceAs (Std.TransCmp
    (compareLex (compareOn fun key : DocumentKey => key.collection.scope)
      (compareLex (compareOn fun key => key.collection.name) (compareOn fun key => key.id))))

instance : Std.LawfulEqOrd DocumentKey where
  compare_self := Std.ReflCmp.compare_self
  eq_of_compare := by
    intro a b same
    simp only [compare, order, compareLex_eq_eq, compareOn] at same
    obtain ⟨scope, name, id⟩ := same
    obtain ⟨⟨_, _⟩, _⟩ := a
    obtain ⟨⟨_, _⟩, _⟩ := b
    simp only [DocumentKey.mk.injEq, CollectionName.mk.injEq]
    exact ⟨⟨Std.LawfulEqOrd.eq_of_compare scope, Std.LawfulEqOrd.eq_of_compare name⟩,
      Std.LawfulEqOrd.eq_of_compare id⟩

end DocumentKey
end DocAudit
