import DocAudit.KeyPath
import DocAudit.Node

/- Comparison of an expected with an actual tree. The walk is depth first and ends at the first
   divergence. In dictionaries the expected keys come first, in their order, then the keys that
   only the actual dictionary has; arrays of different lengths diverge as a whole; numbers are
   compared by what they stand for. Blobs are compared by their metadata, then by their content:
   one side with content is enough, but with none on either side nothing can be said for them. -/
namespace DocAudit

inductive MismatchReason where
  | mismatchedProperty
  | missingBlobFile
deriving DecidableEq, Repr

/-- A divergence: where it is, and the values there. A value is missing if only the other tree has
    the location. -/
structure Mismatch where
  location : KeyPath
  expected : Option Node
  actual : Option Node
  reason : MismatchReason

namespace Mismatch

def path (mismatch : Mismatch) : String := mismatch.location.render

def below (component : Component) (mismatch : Mismatch) : Mismatch :=
  { mismatch with location := component :: mismatch.location }

def here (expected actual : Node) : Mismatch :=
  ⟨[], some expected, some actual, .mismatchedProperty⟩

end Mismatch

namespace Comparison

def compareBlobs (expected actual : Blob) : Option MismatchReason :=
  if expected.sameMetadata actual then
    match expected.content, actual.content with
    | some a, some b => if a = b then none else some .mismatchedProperty
    | none, none => some .missingBlobFile
    | _, _ => none
  else some .mismatchedProperty

def firstExtra (expected : List (String × Node)) :
    List (String × Node) → Option Mismatch
  | [] => none
  | (key, value) :: rest =>
    if Entries.contains key expected then firstExtra expected rest
    else some ⟨[.property key], none, some value, .mismatchedProperty⟩

def firstOf (first second : Option Mismatch) : Option Mismatch :=
  match first with
  | some mismatch => some mismatch
  | none => second

mutual

def compare : Node → Node → Option Mismatch
  | .dictionary es, .dictionary as => firstOf (compareEntries as es) (firstExtra es as)
  | .array es, .array as =>
    if es.length = as.length then compareItems 0 es as
    else some (.here (.array es) (.array as))
  | .null, .null => none
  | .boolean e, .boolean a => if e = a then none else some (.here (.boolean e) (.boolean a))
  | .number e, .number a => if e.equal a then none else some (.here (.number e) (.number a))
  | .string e, .string a => if e = a then none else some (.here (.string e) (.string a))
  | .blob e, .blob a =>
    match compareBlobs e a with
    | none => none
    | some reason => some { Mismatch.here (.blob e) (.blob a) with reason := reason }
  | e, a => some (.here e a)

def compareItems (index : Nat) : List Node → List Node → Option Mismatch
  | e :: es, a :: as =>
    match compare e a with
    | some mismatch => some (mismatch.below (.index index))
    | none => compareItems (index + 1) es as
  | _, _ => none

def compareEntries (actual : List (String × Node)) : List (String × Node) → Option Mismatch
  | [] => none
  | (key, e) :: rest =>
    match Entries.find? key actual with
    | none => some ⟨[.property key], some e, none, .mismatchedProperty⟩
    | some a =>
      match compare e a with
      | some mismatch => some (mismatch.below (.property key))
      | none => compareEntries actual rest

end
end Comparison
end DocAudit
