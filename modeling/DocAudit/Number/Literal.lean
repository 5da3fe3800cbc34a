import DocAudit.Number

/- Decimal literals: an optional minus sign, digits, and possibly a fraction and an exponent. A
   literal of digits alone is an integer if it fits the signed or the unsigned 64-bit range; every
   other literal is a floating point number. That number is not the nearest one to the literal in
   all cases: the digits that fit one 64-bit word are rounded first, and the result is then scaled
   by a power of ten in floating point. -/
namespace DocAudit

structure Literal where
  negative : Bool
  whole : List Nat
  fraction : Option (List Nat)
  exponent : Option Int
deriving DecidableEq, Repr

namespace Literal

def wholeDigits : Nat → List Nat → Nat × Nat
  | significand, [] => (significand, 0)
  | significand, digit :: rest =>
    let next := significand * 10 + digit
    if next ≤ Word.greatestUnsigned then wholeDigits next rest else (significand, rest.length + 1)

/-- Further digits are taken on while they fit the word; how many were taken is counted. -/
def fractionDigits : Nat → Nat → List Nat → Nat × Nat
  | significand, taken, [] => (significand, taken)
  | significand, taken, digit :: rest =>
    let next := significand * 10 + digit
    if next ≤ Word.greatestUnsigned then fractionDigits next (taken + 1) rest else (significand, taken)

def greatestPower : Nat := 308

def scaleUp? (x : Binary64) (power : Nat) : Option Binary64 :=
  if power ≤ greatestPower then (Binary64.ofNat? (Nat.pow 10 power)).bind x.mul?
  else if x.isZero then some x
  else none

def scaleDownBy? : Nat → Binary64 → Option Binary64
  | 0, x => some x
  | times + 1, x =>
    if x.isZero then some x
    else ((Binary64.ofNat? (Nat.pow 10 greatestPower)).bind x.div?).bind (scaleDownBy? times)

def scaleDown? (x : Binary64) (power : Nat) : Option Binary64 :=
  let times := (power - 1) / greatestPower
  (scaleDownBy? times x).bind fun y =>
    (Binary64.ofNat? (Nat.pow 10 (power - times * greatestPower))).bind y.div?

def scaled? (negative : Bool) (significand : Nat) (exponent : Int) : Option Binary64 :=
  (Binary64.ofNat? significand).bind fun x =>
    let magnitude := if 0 ≤ exponent then scaleUp? x exponent.toNat
      else scaleDown? x (-exponent).toNat
    magnitude.map fun m => if negative then m.negate else m

def number? (literal : Literal) : Option Number :=
  let (significand, leftOver) := wholeDigits 0 literal.whole
  match literal.fraction, literal.exponent with
  | none, none =>
    if leftOver = 0 ∧ !literal.negative then some (.integer significand)
    else if leftOver = 0 ∧ significand ≠ 0 ∧ Word.IsSigned (-significand) then
      some (.integer (-significand))
    else (scaled? literal.negative significand leftOver).map .float
  | fraction, exponent =>
    let (significand, taken) := fractionDigits significand 0 (fraction.getD [])
    let places : Int := (leftOver : Int) - taken + exponent.getD 0
    (scaled? literal.negative significand places).map .float

def digitValue (c : Char) : Nat := c.toNat - '0'.toNat

def readDigits? (input : List Char) : Option (List Nat × List Char) :=
  match input.takeWhile Char.isDigit with
  | [] => none
  | digits => some (digits.map digitValue, input.dropWhile Char.isDigit)

def natOf (digits : List Nat) : Nat := digits.foldl (fun n digit => n * 10 + digit) 0

def readExponent? : List Char → Option (Int × List Char)
  | '-' :: rest => (readDigits? rest).map fun (digits, rest) => (-natOf digits, rest)
  | '+' :: rest => (readDigits? rest).map fun (digits, rest) => (natOf digits, rest)
  | rest => (readDigits? rest).map fun (digits, rest) => (natOf digits, rest)

def read? (input : List Char) : Option (Literal × List Char) := do
  let (negative, rest) := match input with
    | '-' :: rest => (true, rest)
    | rest => (false, rest)
  let (whole, rest) ← match rest with
    | '0' :: rest => some ([0], rest)
    | rest => readDigits? rest
  let (fraction, rest) ← match rest with
    | '.' :: rest => (readDigits? rest).map fun (digits, rest) => (some digits, rest)
    | rest => some (none, rest)
  let (exponent, rest) ← match rest with
    | 'e' :: rest => (readExponent? rest).map fun (power, rest) => (some power, rest)
    | 'E' :: rest => (readExponent? rest).map fun (power, rest) => (some power, rest)
    | rest => some (none, rest)
  return (⟨negative, whole, fraction, exponent⟩, rest)

end Literal
end DocAudit
