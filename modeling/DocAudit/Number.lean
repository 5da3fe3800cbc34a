import DocAudit.Number.Binary64
import DocAudit.Number.Shortest
import DocAudit.Word

/- The numbers of a document: integers of the signed or unsigned 64-bit range and finite floating
   point numbers. An integer and a floating point number are never the same value of this type,
   but `equal` compares what they stand for. -/
namespace DocAudit

inductive Number where
  | integer (n : Int)
  | float (x : Binary64)
deriving DecidableEq, Repr

namespace Number

def value : Number → Rat
  | .integer n => n
  | .float x => x.value

/-- Numeric equality. An integer equals a floating point number only if that has no fractional
    part and is exactly this integer; no integer is rounded. -/
def equal : Number → Number → Bool
  | .integer m, .integer n => m == n
  | .integer m, .float y => y.toInt? == some m
  | .float x, .integer n => x.toInt? == some n
  | .float x, .float y => x.equal y

/-- Equality within one representation: `1` and `1.0` differ, `0.0` and `-0.0` do not. -/
def identical : Number → Number → Bool
  | .integer m, .integer n => m == n
  | .float x, .float y => x.equal y
  | _, _ => false

def toInt64? : Number → Option Int
  | .integer n => if Word.IsSigned n then some n else none
  | .float _ => none

def toNat? : Number → Option Nat
  | .integer n => if 0 ≤ n then some n.toNat else none
  | .float _ => none

def toFloat? : Number → Option Binary64
  | .integer n => Binary64.ofInt? n
  | .float x => some x

def leastPositional : Int := -5
def greatestPositional : Int := 15

def zeros (n : Nat) : String := String.ofList (List.replicate n '0')

def trimZeros : List Char → Int → List Char × Int
  | '0' :: rest, exponent => trimZeros rest (exponent + 1)
  | reversed, exponent => (reversed.reverse, exponent)

/-- Digits with a point while the exponent of the first digit is from -5 to 15, else one digit before
    the point and a signed exponent. -/
def floatText (x : Binary64) : String :=
  let sign := if x.negative then "-" else ""
  if x.isZero then sign ++ "0.0"
  else
    let shortest := Shortest.decimal x
    let (digits, last) := trimZeros (toString shortest.digits).toList.reverse shortest.exponent
    let first := last + digits.length - 1
    let text := String.ofList
    if first < leastPositional ∨ greatestPositional < first then
      let exponent := if first < 0 then toString first else "+" ++ toString first
      let fraction := if digits.length = 1 then "" else "." ++ text (digits.drop 1)
      sign ++ text (digits.take 1) ++ fraction ++ "e" ++ exponent
    else if first < 0 then
      sign ++ "0." ++ zeros (-first - 1).toNat ++ text digits
    else if 0 ≤ last then
      sign ++ text digits ++ zeros last.toNat ++ ".0"
    else
      let whole := (first + 1).toNat
      sign ++ text (digits.take whole) ++ "." ++ text (digits.drop whole)

def text : Number → String
  | .integer n => toString n
  | .float x => floatText x

end Number
end DocAudit
