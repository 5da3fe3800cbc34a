import DocAudit.Word

/- Bounds on what a path may ask for: the number of its components, and the size to which an array
   may be filled up for an index beyond its end. -/
namespace DocAudit

inductive LimitError where
  | pathTooLong (length max : Nat)
  | arrayTooLarge (size max : Nat)
deriving DecidableEq, Repr

namespace LimitError

def message : LimitError → String
  | .pathTooLong length max =>
    "path length " ++ toString length ++ " exceeds maximum of " ++ toString max ++ " components"
  | .arrayTooLarge size max =>
    "array size " ++ toString size ++ " exceeds maximum of " ++ toString max ++ " elements"

end LimitError

namespace Limit

def maxPathLength : Nat := 256
def maxArraySize : Nat := 1000000

def checkPathLength (length : Nat) : Except LimitError Unit :=
  if length > maxPathLength then .error (.pathTooLong length maxPathLength) else .ok ()

def sizeWithIndex (index : Nat) : Nat := min (index + 1) Word.greatestUnsigned

def checkArrayIndex (index : Nat) : Except LimitError Unit :=
  if sizeWithIndex index > maxArraySize then
    .error (.arrayTooLarge (sizeWithIndex index) maxArraySize)
  else .ok ()

end Limit
end DocAudit
