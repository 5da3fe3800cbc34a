/- The finite 64-bit binary floating point numbers, held as the three fields of their bit pattern,
   so that there is neither an infinity nor a NaN. A number stands for `± significand · 2 ^ scale`;
   arithmetic is done on that exact value and rounded once. -/
namespace DocAudit

abbrev Binary64.fractionLimit : Nat := 4503599627370496

structure Binary64 where
  negative : Bool
  exponent : Fin 2047
  fraction : Fin Binary64.fractionLimit
deriving DecidableEq, Repr

namespace Binary64

def zero (negative : Bool) : Binary64 := ⟨negative, 0, 0⟩

def isZero (x : Binary64) : Bool := x.exponent.val == 0 && x.fraction.val == 0

def significand (x : Binary64) : Nat :=
  if x.exponent.val = 0 then x.fraction.val else fractionLimit + x.fraction.val

def scale (x : Binary64) : Int := (max x.exponent.val 1 : Nat) - 1075

def value (x : Binary64) : Rat :=
  (if x.negative then -1 else 1) * x.significand * 2 ^ x.scale

def equal (x y : Binary64) : Bool := x == y || (x.isZero && y.isZero)

def negate (x : Binary64) : Binary64 := { x with negative := !x.negative }

def toInt? (x : Binary64) : Option Int :=
  let sign : Int := if x.negative then -1 else 1
  if 0 ≤ x.scale then
    some (sign * (x.significand * Nat.pow 2 x.scale.toNat : Nat))
  else
    let unit := Nat.pow 2 (-x.scale).toNat
    if x.significand % unit = 0 then some (sign * (x.significand / unit : Nat)) else none

def nearestQuotient (num den : Nat) : Nat :=
  let quotient := num / den
  let twice := 2 * (num % den)
  if twice < den then quotient
  else if den < twice then quotient + 1
  else quotient + quotient % 2

/-- Packs `significand · 2 ^ scale`, for a significand of at most 53 bits that has all of them
    unless the scale is the least one. -/
def pack? (negative : Bool) (significand : Nat) (scale : Int) : Option Binary64 :=
  let field := if significand < fractionLimit then 0 else (scale + 1075).toNat
  if inRange : field < 2047 then
    some ⟨negative, ⟨field, inRange⟩, ⟨significand % fractionLimit, Nat.mod_lt _ (by decide)⟩⟩
  else none

/-- The nearest number to `± num / den · 2 ^ scale`, a tie to the even significand; none if that
    lies beyond the largest number. -/
def nearest? (negative : Bool) (num den : Nat) (scale : Int) : Option Binary64 :=
  let num := num * Nat.pow 2 scale.toNat
  let den := den * Nat.pow 2 (-scale).toNat
  let atScale (q : Int) : Nat × Nat := (num * Nat.pow 2 (-q).toNat, den * Nat.pow 2 q.toNat)
  let low : Int := max (-1074) ((num.log2 : Int) - den.log2 - 53)
  let (n, d) := atScale low
  let q := if n / d < 2 * fractionLimit then low else low + 1
  let (n, d) := atScale q
  let significand := nearestQuotient n d
  if significand = 2 * fractionLimit then pack? negative fractionLimit (q + 1)
  else pack? negative significand q

def ofNat? (n : Nat) : Option Binary64 := nearest? false n 1 0

def mul? (x y : Binary64) : Option Binary64 :=
  nearest? (x.negative != y.negative) (x.significand * y.significand) 1 (x.scale + y.scale)

def div? (x y : Binary64) : Option Binary64 :=
  if y.isZero then none
  else nearest? (x.negative != y.negative) x.significand y.significand (x.scale - y.scale)

def ofInt? (n : Int) : Option Binary64 := nearest? (n < 0) n.natAbs 1 0

end Binary64
end DocAudit
