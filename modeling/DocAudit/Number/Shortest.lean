import DocAudit.Number.Binary64

/- The shortest decimal that reads back as a given floating point number. Numbers nearer to it than
   to its neighbours fill an interval; the coarsest grid of multiples of a power of ten with a
   point in that interval has the fewest digits, and of its points the nearest one is taken, a tie
   going to the even one. -/
namespace DocAudit
namespace Shortest

structure Decimal where
  digits : Nat
  exponent : Int
deriving DecidableEq, Repr

/-- The rounding interval of `significand · 2 ^ scale`, its ends and the number itself counted in
    quarters of a unit of the last place. The ends belong to it if the significand is even. -/
structure Interval where
  low : Nat
  middle : Nat
  high : Nat
  scale : Int
  closed : Bool
deriving DecidableEq, Repr

def interval (x : Binary64) : Interval :=
  let m := x.significand
  let below := if m = Binary64.fractionLimit ∧ x.exponent.val > 1 then 1 else 2
  ⟨4 * m - below, 4 * m, 4 * m + 2, x.scale - 2, m % 2 == 0⟩

def onGrid? (i : Interval) (k : Int) : Option Decimal :=
  -- one unit of the grid is `unit` and one quarter place is `quarter`, both in a common measure
  let unit := Nat.pow 10 k.toNat * Nat.pow 2 (-i.scale).toNat
  let quarter := Nat.pow 2 i.scale.toNat * Nat.pow 10 (-k).toNat
  let middle := i.middle * quarter
  let inside (n : Nat) : Bool :=
    let point := n * unit
    let low := i.low * quarter
    let high := i.high * quarter
    (low < point && point < high) || (i.closed && (point == low || point == high))
  let floor := middle / unit
  let nearer := Binary64.nearestQuotient middle unit
  let farther := if nearer = floor then floor + 1 else floor
  if inside nearer then some ⟨nearer, k⟩
  else if inside farther then some ⟨farther, k⟩
  else none

/-- An exponent of ten above that of every point of the interval. The decimal logarithm of two is
    taken for 0.30103, which is near enough for the binary exponents that there are. -/
def coarsest (i : Interval) : Int :=
  ((i.middle.log2 : Int) + 2 + i.scale) * 30103 / 100000 + 2

def grids (i : Interval) : List Int := (List.range 24).map fun (n : Nat) => coarsest i - n

def decimal (x : Binary64) : Decimal :=
  if x.isZero then ⟨0, 0⟩
  else
    let i := interval x
    ((grids i).findSome? (onGrid? i)).getD ⟨0, 0⟩

end Shortest
end DocAudit
