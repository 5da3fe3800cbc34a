import DocAudit.Proofs.NumericEquality
import Mathlib.Data.Rat.Floor

/- Equality of numbers as it is decided on machine words. An integer is widened to a signed 128-bit
   word. A floating point number is compared with it if it has no fractional part, by way of a
   conversion that yields the nearest word, so that everything beyond the range becomes one of the
   two bounds. No integer of 64 bits is such a bound. That is why the conversion does no harm, and
   the outcome is that of the comparison of the exact values. -/
namespace DocAudit

namespace Word

def leastWide : Int := -170141183460469231731687303715884105728
def greatestWide : Int := 170141183460469231731687303715884105727

def saturated (n : Int) : Int := max leastWide (min n greatestWide)

end Word

namespace Binary64

def truncated (x : Binary64) : Int := if 0 ≤ x.value then ⌊x.value⌋ else ⌈x.value⌉

def fractionalPart (x : Binary64) : Rat := x.value - x.truncated

def toWide (x : Binary64) : Int := Word.saturated x.truncated

end Binary64

namespace Number

/-- An integer of the signed or of the unsigned 64-bit range, or a floating point number. -/
def InRange : Number → Prop
  | .integer n => Word.leastSigned ≤ n ∧ n ≤ Word.greatestUnsigned
  | .float _ => True

def widened? (n : Number) : Option Int := n.toInt64?.or (n.toNat?.map Int.ofNat)

/-- A floating point number without a fractional part that is converted to the integer. -/
def converts (n : Number) (expected : Int) : Bool :=
  match n.toFloat? with
  | some x => x.fractionalPart == 0 && x.toWide == expected
  | none => false

def equalAsWords (m n : Number) : Bool :=
  match m.widened?, n.widened? with
  | some i, some j => i == j
  | some i, none => n.converts i
  | none, some j => m.converts j
  | none, none =>
    match m.toFloat?, n.toFloat? with
    | some x, some y => x.equal y
    | _, _ => false

theorem widened_integer {n : Int} (in_range : (Number.integer n).InRange) :
    (Number.integer n).widened? = some n := by
  simp only [InRange, Word.leastSigned, Word.greatestUnsigned] at in_range
  unfold widened? toInt64? toNat?
  by_cases signed : Word.IsSigned n
  · simp [signed]
  · have counted : 0 ≤ n := by
      simp only [Word.IsSigned, Word.leastSigned, Word.greatestSigned] at signed
      omega
    simp [signed, counted]

theorem widened_float (x : Binary64) : (Number.float x).widened? = none := rfl

end Number

namespace Binary64

theorem truncated_of_integer {x : Binary64} {n : Int} (same : x.value = n) : x.truncated = n := by
  unfold truncated
  rw [same]
  split
  · exact Int.floor_intCast n
  · exact Int.ceil_intCast n

theorem fractional_part_zero_iff (x : Binary64) :
    x.fractionalPart = 0 ↔ x.value = x.truncated := by
  unfold fractionalPart
  exact sub_eq_zero

theorem saturated_inside_iff {n : Int} (above : Word.leastWide < n) (below : n < Word.greatestWide)
    (m : Int) : Word.saturated m = n ↔ m = n := by
  unfold Word.saturated
  omega

theorem converted_iff {x : Binary64} {n : Int} (above : Word.leastWide < n)
    (below : n < Word.greatestWide) : x.fractionalPart = 0 ∧ x.toWide = n ↔ x.value = n := by
  rw [fractional_part_zero_iff, toWide, saturated_inside_iff above below]
  constructor
  · rintro ⟨whole, rfl⟩
    exact whole
  · intro same
    have truncated := truncated_of_integer same
    exact ⟨by rw [truncated, same], truncated⟩

theorem even_of_scaled {m n s t : Nat} (scaled : m * 2 ^ s = n * 2 ^ t) (smaller : n < m) :
    2 ∣ m := by
  rcases Nat.lt_or_ge s t with coarse | fine
  · obtain ⟨k, rfl⟩ := Nat.exists_eq_add_of_lt coarse
    have doubled : m = n * 2 ^ k * 2 := by
      refine Nat.eq_of_mul_eq_mul_right (Nat.two_pow_pos s) ?_
      rw [scaled]
      ring
    exact Dvd.intro_left _ doubled.symm
  · have less : n * 2 ^ t < m * 2 ^ s :=
      calc
        n * 2 ^ t ≤ n * 2 ^ s := Nat.mul_le_mul_left n (Nat.pow_le_pow_right (by decide) fine)
        _ < m * 2 ^ s := Nat.mul_lt_mul_of_pos_right smaller (Nat.two_pow_pos s)
    exact absurd scaled (Nat.ne_of_gt less)

theorem even_beyond_significand {x : Binary64} {n : Int} (same : x.value = n)
    (large : 2 ^ 53 < n.natAbs) : 2 ∣ n := by
  have units := congrArg Int.natAbs ((integer_eq_iff_units n x).mp same.symm)
  have smaller : x.significand < n.natAbs := by
    have fraction := x.fraction.isLt
    unfold significand fractionLimit at *
    split <;> omega
  simp only [units_abs, Int.natAbs_mul, Int.natAbs_pow, Int.reduceAbs] at units
  exact Int.natAbs_dvd_natAbs.mp (even_of_scaled units smaller)

end Binary64

namespace Number

theorem converts_iff {n : Int} (in_range : (Number.integer n).InRange) (x : Binary64) :
    (Number.float x).converts n = true ↔ x.value = n := by
  simp only [InRange, Word.leastSigned, Word.greatestUnsigned] at in_range
  have above : Word.leastWide < n := by
    unfold Word.leastWide
    omega
  have below : n < Word.greatestWide := by
    unfold Word.greatestWide
    omega
  simp only [converts, toFloat?, Bool.and_eq_true, beq_iff_eq]
  exact Binary64.converted_iff above below

theorem equal_as_words {m n : Number} (m_in_range : m.InRange) (n_in_range : n.InRange) :
    m.equalAsWords n = m.equal n := by
  rw [Bool.eq_iff_iff, equal_iff_value]
  unfold equalAsWords
  cases m with
  | integer i =>
    rw [widened_integer m_in_range]
    cases n with
    | integer j => simp [widened_integer n_in_range, value]
    | float y =>
      rw [widened_float]
      exact (converts_iff m_in_range y).trans eq_comm
  | float x =>
    rw [widened_float]
    cases n with
    | integer j =>
      rw [widened_integer n_in_range]
      exact converts_iff n_in_range x
    | float y => exact equal_iff_value (.float x) (.float y)

theorem not_equal_of_value {n : Int} {x : Binary64} (differ : x.value ≠ n) :
    (Number.integer n).equal (.float x) = false ∧ (Number.float x).equal (.integer n) = false := by
  simp only [← Bool.not_eq_true, equal_iff_value, value]
  exact ⟨Ne.symm differ, differ⟩

theorem odd_not_equal {n : Int} (large : 2 ^ 53 < n.natAbs) (odd : n % 2 = 1) (x : Binary64) :
    (Number.integer n).equal (.float x) = false ∧ (Number.float x).equal (.integer n) = false := by
  refine not_equal_of_value fun same => ?_
  have even := Binary64.even_beyond_significand same large
  omega

theorem outside_not_equal {n : Int} (in_range : (Number.integer n).InRange) {x : Binary64}
    (outside : x.value < Word.leastWide ∨ Word.greatestWide < x.value) :
    (Number.integer n).equalAsWords (.float x) = false ∧
      (Number.float x).equalAsWords (.integer n) = false := by
  have float_in_range : (Number.float x).InRange := trivial
  rw [equal_as_words in_range float_in_range, equal_as_words float_in_range in_range]
  refine not_equal_of_value fun same => ?_
  rw [same, Int.cast_lt, Int.cast_lt] at outside
  simp only [InRange, Word.leastSigned, Word.greatestUnsigned] at in_range
  simp only [Word.leastWide, Word.greatestWide] at outside
  omega

theorem zero_value (negative : Bool) : (Number.float (.zero negative)).value = 0 := by
  simp [value, Binary64.value, Binary64.zero, Binary64.significand]

/-- Numbers are equal on machine words exactly if they stand for the same rational number. So an odd
    integer of more than 53 bits equals no floating point number, and a floating point number
    beyond the 128-bit range no integer; the two zeros and the integer zero are equal; and equality
    is an equivalence relation, whatever the representations are. -/
theorem equality_of_values :
    (∀ m n : Number, m.InRange → n.InRange →
      m.equalAsWords n = m.equal n ∧ (m.equal n = true ↔ m.value = n.value)) ∧
    (∀ (n : Int) (x : Binary64), 2 ^ 53 < n.natAbs → n % 2 = 1 →
      (integer n).equal (.float x) = false ∧ (float x).equal (.integer n) = false) ∧
    (∀ (n : Int) (x : Binary64), (integer n).InRange →
      x.value < Word.leastWide ∨ Word.greatestWide < x.value →
      (integer n).equalAsWords (.float x) = false ∧
        (float x).equalAsWords (.integer n) = false) ∧
    ((float (.zero true)).equal (.integer 0) = true ∧
      (float (.zero true)).equal (.float (.zero false)) = true) ∧
    Equivalence fun m n : Number => m.equal n = true := by
  refine ⟨fun m n m_in_range n_in_range => ?_, ?_, ?_, ?_, ?_⟩
  · exact ⟨equal_as_words m_in_range n_in_range, equal_iff_value m n⟩
  · exact fun n x large odd => odd_not_equal large odd x
  · exact fun n x in_range outside => outside_not_equal in_range outside
  · simp only [equal_iff_value, zero_value]
    exact ⟨rfl, trivial⟩
  · simp only [equal_iff_value]
    exact ⟨fun m => rfl, fun same => same.symm, fun first second => first.trans second⟩

theorem neighbours_not_equal :
    (integer 18446744073709551615).equalAsWords (.float ⟨false, 1087, 0⟩) = false ∧
    (integer 9007199254740993).equal (.float ⟨false, 1076, 0⟩) = false ∧
    (integer 18446744073709551615).equalAsWords (.float ⟨false, 1151, 0⟩) = false := by
  have unsigned : (integer 18446744073709551615).InRange := by
    simp [InRange, Word.leastSigned, Word.greatestUnsigned]
  have beyond : (Word.greatestWide : Rat) < (⟨false, 1151, 0⟩ : Binary64).value := by
    have scale : (⟨false, 1151, 0⟩ : Binary64).scale = 76 := by decide
    have significand : (⟨false, 1151, 0⟩ : Binary64).significand = 4503599627370496 := by decide
    rw [Binary64.value, scale, significand]
    norm_num [Word.greatestWide]
  have words := (equality_of_values.1 _ (.float ⟨false, 1087, 0⟩) unsigned trivial).1
  exact ⟨words.trans (by decide), (equality_of_values.2.1 _ _ (by decide) (by decide)).1,
    (equality_of_values.2.2.1 _ _ unsigned (.inr beyond)).1⟩

end Number
end DocAudit
