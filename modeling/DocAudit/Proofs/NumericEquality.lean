import DocAudit.Number
import Mathlib.Algebra.Field.Rat
import Mathlib.Algebra.GroupWithZero.Basic
import Mathlib.Data.Rat.Cast.Defs
import Mathlib.Tactic.Ring

/- Numbers are equal exactly if they stand for the same rational number. Every floating point number
   is a whole multiple of the least positive one; `units` counts how many, with the sign. Distinct
   magnitudes of the bit pattern have distinct counts, so the count decides equality. -/
namespace DocAudit
namespace Binary64

/-- One is the least positive number doubled so many times. -/
def leastShift : Nat := 1074

def shift (x : Binary64) : Nat := max x.exponent.val 1 - 1

def magnitude (x : Binary64) : Nat := x.significand * 2 ^ x.shift

def sign (x : Binary64) : Int := if x.negative then -1 else 1

def units (x : Binary64) : Int := x.sign * x.magnitude

theorem scale_eq (x : Binary64) : x.scale = x.shift - leastShift := by
  unfold scale shift leastShift
  omega

theorem value_eq_units (x : Binary64) : x.value = x.units / 2 ^ leastShift := by
  unfold value units magnitude sign
  rw [scale_eq, zpow_sub₀ (by decide), zpow_natCast, zpow_natCast]
  push_cast
  ring

theorem value_eq_iff_units (x y : Binary64) : x.value = y.value ↔ x.units = y.units := by
  rw [value_eq_units, value_eq_units, div_left_inj' (pow_ne_zero _ (by decide))]
  exact Int.cast_inj

theorem integer_eq_iff_units (n : Int) (x : Binary64) :
    (n : Rat) = x.value ↔ n * 2 ^ leastShift = x.units := by
  rw [value_eq_units, eq_div_iff (pow_ne_zero _ (by decide))]
  exact_mod_cast Iff.rfl

theorem magnitude_below (x : Binary64) : x.magnitude < fractionLimit * 2 ^ x.exponent.val := by
  unfold magnitude significand shift
  rcases Nat.eq_zero_or_pos x.exponent.val with zero | normal
  · simp [zero]
  · obtain ⟨e, exponent⟩ := Nat.exists_eq_add_of_le' normal
    rw [exponent, if_neg (by omega), show max (e + 1) 1 - 1 = e by omega, Nat.pow_succ,
      Nat.mul_comm (2 ^ e), ← Nat.mul_assoc]
    exact Nat.mul_lt_mul_of_pos_right (by omega) (Nat.two_pow_pos e)

theorem magnitude_above {x : Binary64} {e : Nat} (normal : x.exponent.val = e + 1) :
    fractionLimit * 2 ^ e ≤ x.magnitude := by
  unfold magnitude significand shift
  rw [normal, if_neg (by omega), show max (e + 1) 1 - 1 = e by omega]
  exact Nat.mul_le_mul_right _ (by omega)

theorem magnitude_lt {x y : Binary64} (less : x.exponent.val < y.exponent.val) :
    x.magnitude < y.magnitude := by
  obtain ⟨e, normal⟩ := Nat.exists_eq_add_of_le' (Nat.one_le_of_lt less)
  calc
    x.magnitude < fractionLimit * 2 ^ x.exponent.val := magnitude_below x
    _ ≤ fractionLimit * 2 ^ e :=
      Nat.mul_le_mul_left _ (Nat.pow_le_pow_right (by decide) (by omega))
    _ ≤ y.magnitude := magnitude_above normal

theorem magnitude_injective {x y : Binary64} (same : x.magnitude = y.magnitude) :
    x.exponent = y.exponent ∧ x.fraction = y.fraction := by
  have exponents : x.exponent.val = y.exponent.val := by
    rcases Nat.lt_trichotomy x.exponent.val y.exponent.val with less | equal | greater
    · exact absurd same (Nat.ne_of_lt (magnitude_lt less))
    · exact equal
    · exact absurd same.symm (Nat.ne_of_lt (magnitude_lt greater))
  refine ⟨Fin.ext exponents, Fin.ext ?_⟩
  unfold magnitude significand shift at same
  rw [exponents] at same
  have significands := Nat.eq_of_mul_eq_mul_right (Nat.two_pow_pos _) same
  split at significands <;> omega

theorem magnitude_zero_iff (x : Binary64) : x.magnitude = 0 ↔ x.isZero = true := by
  have positive := Nat.two_pow_pos x.shift
  unfold magnitude significand isZero
  simp only [Nat.mul_eq_zero, Bool.and_eq_true, beq_iff_eq]
  split <;> omega

theorem units_abs (x : Binary64) : x.units.natAbs = x.magnitude := by
  unfold units sign
  split <;> simp

theorem equal_iff_units (x y : Binary64) : x.equal y = true ↔ x.units = y.units := by
  simp only [equal, Bool.or_eq_true, beq_iff_eq, Bool.and_eq_true, ← magnitude_zero_iff]
  constructor
  · rintro (rfl | ⟨zero, other⟩)
    · rfl
    · simp [units, zero, other]
  · intro same
    have magnitudes : x.magnitude = y.magnitude := by rw [← units_abs, same, units_abs]
    obtain ⟨exponents, fractions⟩ := magnitude_injective magnitudes
    by_cases signs : x.negative = y.negative
    · left
      cases x
      cases y
      simp_all
    -- opposite numbers of the same units are the two zeros
    · right
      unfold units sign at same
      cases negative : x.negative with
      | false =>
        have other : y.negative = true := by simpa [negative] using signs
        rw [negative, other, if_neg Bool.false_ne_true, if_pos rfl] at same
        omega
      | true =>
        have other : y.negative = false := by simpa [negative] using signs
        rw [negative, other, if_pos rfl, if_neg Bool.false_ne_true] at same
        omega

theorem whole_quotient_iff {significand unit : Nat} (positive : 0 < unit) {sign : Int}
    (unitary : sign = 1 ∨ sign = -1) (n : Int) :
    significand % unit = 0 ∧ sign * (significand / unit : Nat) = n ↔
      n * unit = sign * significand := by
  have signs : sign * sign = 1 := by rcases unitary with rfl | rfl <;> rfl
  constructor
  · rintro ⟨whole, rfl⟩
    rw [Int.mul_assoc, ← Int.natCast_mul, Nat.div_mul_cancel (Nat.dvd_of_mod_eq_zero whole)]
  · intro multiple
    have divides : unit ∣ significand := by
      rw [← Int.natCast_dvd_natCast]
      refine ⟨sign * n, ?_⟩
      rw [Int.mul_comm, Int.mul_assoc, multiple, ← Int.mul_assoc, signs, Int.one_mul]
    obtain ⟨quotient, rfl⟩ := divides
    refine ⟨Nat.mul_mod_right unit quotient, ?_⟩
    rw [Nat.mul_div_cancel_left quotient positive]
    refine Int.eq_of_mul_eq_mul_right (Int.natCast_ne_zero.mpr (Nat.ne_of_gt positive)) ?_
    rw [multiple, Int.natCast_mul, Int.mul_assoc, Int.mul_comm (quotient : Int)]

theorem to_integer_iff_units (x : Binary64) (n : Int) :
    x.toInt? = some n ↔ n * 2 ^ leastShift = x.units := by
  have unitary : x.sign = 1 ∨ x.sign = -1 := by
    unfold sign
    split <;> simp
  have scale := scale_eq x
  -- below the point the significand must divide, above it it is only scaled
  rcases Nat.lt_or_ge x.shift leastShift with small | large
  · obtain ⟨k, shifted⟩ := Nat.exists_eq_add_of_lt small
    have exponent : x.scale = -(k + 1 : Nat) := by omega
    have read : x.toInt? =
        if x.significand % 2 ^ (k + 1) = 0 then
          some (x.sign * (x.significand / 2 ^ (k + 1) : Nat))
        else none := by
      have negative : ¬ (0 : Int) ≤ -(k + 1 : Nat) := by omega
      rw [toInt?, exponent, if_neg negative, Int.neg_neg, Int.toNat_natCast]
      rfl
    have scaled : n * 2 ^ leastShift = n * (2 ^ (k + 1) : Nat) * 2 ^ x.shift := by
      rw [shifted, Nat.add_assoc, Nat.pow_succ]
      push_cast
      ring
    have product : x.units = x.sign * x.significand * 2 ^ x.shift := by
      unfold units magnitude
      push_cast
      ring
    rw [read, scaled, product, mul_left_inj' (pow_ne_zero _ (by decide)),
      Option.ite_none_right_eq_some, Option.some.injEq]
    exact whole_quotient_iff (Nat.two_pow_pos (k + 1)) unitary n
  · obtain ⟨k, shifted⟩ := Nat.exists_eq_add_of_le large
    have exponent : x.scale = k := by omega
    have read : x.toInt? = some (x.sign * (x.significand * 2 ^ k : Nat)) := by
      simp [toInt?, exponent, sign]
    have product : x.units = x.sign * (x.significand * 2 ^ k : Nat) * 2 ^ leastShift := by
      unfold units magnitude
      rw [shifted, Nat.pow_add]
      push_cast
      ring
    rw [read, product, Option.some.injEq, eq_comm]
    exact (mul_left_inj' (pow_ne_zero _ (by decide))).symm

end Binary64

namespace Number

theorem equal_iff_value (m n : Number) : m.equal n = true ↔ m.value = n.value := by
  cases m with
  | integer m =>
    cases n with
    | integer n => simp [equal, value]
    | float y =>
      rw [equal, beq_iff_eq, Binary64.to_integer_iff_units, value, value,
        Binary64.integer_eq_iff_units]
  | float x =>
    cases n with
    | integer n =>
      rw [equal, beq_iff_eq, Binary64.to_integer_iff_units, value, value, eq_comm (a := x.value),
        Binary64.integer_eq_iff_units]
    | float y => rw [equal, Binary64.equal_iff_units, value, value, Binary64.value_eq_iff_units]

end Number
end DocAudit
