import Mathlib.Algebra.Order.Field.Power
import Mathlib.Algebra.Order.Field.Rat
import Mathlib.Tactic.Linarith
import Mathlib.Tactic.NormNum
import Mathlib.Tactic.Positivity
import Mathlib.Tactic.Ring
import UriTemplate.Number.Notation

/-!
# Exact values

A number with a power of two or ten beside it has an exact rational value (`Dyadic.value`,
`Scientific.value`). Such numbers are compared without fractions: a power with a negative exponent
stands on the other side, where its exponent is positive. These comparisons are those of the exact
values (`Dyadic.lt_iff`, `RoundingInterval.contains_iff`).
-/

namespace UriTemplate
set_option autoImplicit false

theorem cast_twoPow (n : Nat) : (twoPow n : Rat) = 2 ^ n := Nat.cast_pow 2 n

theorem cast_tenPow (n : Nat) : (tenPow n : Rat) = 10 ^ n := Nat.cast_pow 10 n

/-- A power is the quotient of two powers with exponents that are not negative. -/
theorem zpow_mul_pow_toNat {b : Rat} (hb : b ≠ 0) (e : Int) :
    b ^ e * b ^ (-e).toNat = b ^ e.toNat := by
  rw [← zpow_natCast, ← zpow_natCast, ← zpow_add₀ hb]
  congr 1
  omega

/-- The exact number. -/
def Scientific.value (s : Scientific) : Rat := s.digits * 10 ^ s.exponent

namespace Dyadic

variable (x y : Dyadic)

/-- The exact number. -/
def value : Rat := x.significand * 2 ^ x.exponent

theorem value_mul_ratio : x.value * x.ratio.2 = x.ratio.1 := by
  show (x.significand : Rat) * 2 ^ x.exponent * (twoPow (-x.exponent).toNat : Nat) =
    (x.significand * twoPow x.exponent.toNat : Nat)
  rw [Nat.cast_mul, cast_twoPow, cast_twoPow, mul_assoc, zpow_mul_pow_toNat two_ne_zero]

theorem ratio_pos : (0 : Rat) < x.ratio.2 := by
  show (0 : Rat) < (twoPow (-x.exponent).toNat : Nat)
  rw [cast_twoPow]
  positivity

/-- **Numbers are compared** by their exact values. -/
theorem lt_iff : x.lt y = true ↔ x.value < y.value := by
  have hx := x.ratio_pos
  have hy := y.ratio_pos
  rw [lt, decide_eq_true_eq, ← Nat.cast_lt (α := Rat), Nat.cast_mul, Nat.cast_mul,
    ← value_mul_ratio x, ← value_mul_ratio y, mul_right_comm x.value, mul_lt_mul_iff_left₀ hx,
    mul_lt_mul_iff_left₀ hy]

end Dyadic

namespace RoundingInterval

variable (i : RoundingInterval)

/-- So many units of the interval. -/
def units (n : Nat) : Rat := n * 2 ^ i.exponent

/-- A number lies between the ends, or is one of them if they belong to the interval. -/
structure Holds (q : Rat) : Prop where
  low_le : i.units i.low ≤ q
  le_high : q ≤ i.units i.high
  inside : i.closed = false → i.units i.low < q ∧ q < i.units i.high

variable {i}

theorem units_lt_units_iff {m n : Nat} : i.units m < i.units n ↔ m < n := by
  have hunit : (0 : Rat) < 2 ^ i.exponent := by positivity
  rw [units, units, mul_lt_mul_iff_left₀ hunit, Nat.cast_lt]

/-- The interval is convex. -/
theorem Holds.between {p q r : Rat} (hp : i.Holds p) (hr : i.Holds r) (hpq : p ≤ q) (hqr : q ≤ r) :
    i.Holds q where
  low_le := hp.low_le.trans hpq
  le_high := hqr.trans hr.le_high
  inside h := ⟨(hp.inside h).1.trans_le hpq, hqr.trans_lt (hr.inside h).2⟩

/-! ## Steps of a power of ten -/

section Scale

variable (i) (k : Int) (n d : Nat)

/-- What both sides of a comparison are multiplied with. -/
def commonFactor : Rat := 2 ^ (-i.exponent).toNat * 10 ^ (-k).toNat

theorem commonFactor_pos : 0 < i.commonFactor k := by
  unfold commonFactor
  positivity

theorem units_mul_commonFactor : i.units n * i.commonFactor k = (n * (i.scale k).1 : Nat) := by
  calc i.units n * i.commonFactor k
    _ = n * (2 ^ i.exponent * 2 ^ (-i.exponent).toNat) * 10 ^ (-k).toNat := by
      unfold units commonFactor
      ring
    _ = (n * (twoPow i.exponent.toNat * tenPow (-k).toNat) : Nat) := by
      rw [zpow_mul_pow_toNat two_ne_zero, Nat.cast_mul, Nat.cast_mul, cast_twoPow, cast_tenPow,
        mul_assoc]

theorem steps_mul_commonFactor :
    (d : Rat) * 10 ^ k * i.commonFactor k = (d * (i.scale k).2 : Nat) := by
  have hten : (10 : Rat) ≠ 0 := by norm_num
  calc (d : Rat) * 10 ^ k * i.commonFactor k
    _ = d * (2 ^ (-i.exponent).toNat * (10 ^ k * 10 ^ (-k).toNat)) := by
      unfold commonFactor
      ring
    _ = (d * (twoPow (-i.exponent).toNat * tenPow k.toNat) : Nat) := by
      rw [zpow_mul_pow_toNat hten, Nat.cast_mul, Nat.cast_mul, cast_twoPow, cast_tenPow]

theorem units_le_steps_iff :
    n * (i.scale k).1 ≤ d * (i.scale k).2 ↔ i.units n ≤ (d : Rat) * 10 ^ k := by
  rw [← mul_le_mul_iff_left₀ (i.commonFactor_pos k), units_mul_commonFactor,
    steps_mul_commonFactor, Nat.cast_le]

theorem steps_le_units_iff :
    d * (i.scale k).2 ≤ n * (i.scale k).1 ↔ (d : Rat) * 10 ^ k ≤ i.units n := by
  rw [← mul_le_mul_iff_left₀ (i.commonFactor_pos k), units_mul_commonFactor,
    steps_mul_commonFactor, Nat.cast_le]

/-- **A point of a grid** is tested by its exact value. -/
theorem contains_iff : i.contains k d = true ↔ i.Holds ((d : Rat) * 10 ^ k) := by
  have hlow := not_congr (i.steps_le_units_iff k i.low d)
  have hhigh := not_congr (i.units_le_steps_iff k i.high d)
  rw [not_le, not_le] at hlow hhigh
  show (if i.closed then
      decide (i.low * (i.scale k).1 ≤ d * (i.scale k).2) &&
        decide (d * (i.scale k).2 ≤ i.high * (i.scale k).1)
    else
      decide (i.low * (i.scale k).1 < d * (i.scale k).2) &&
        decide (d * (i.scale k).2 < i.high * (i.scale k).1)) = true ↔ _
  cases hclosed : i.closed with
  | true =>
    rw [if_pos rfl, Bool.and_eq_true, decide_eq_true_eq, decide_eq_true_eq, units_le_steps_iff,
      steps_le_units_iff]
    refine ⟨fun h => ⟨h.1, h.2, fun hopen => ?_⟩, fun h => ⟨h.low_le, h.le_high⟩⟩
    rw [hclosed] at hopen
    cases hopen
  | false =>
    rw [if_neg Bool.false_ne_true, Bool.and_eq_true, decide_eq_true_eq, decide_eq_true_eq, hlow,
      hhigh]
    exact ⟨fun h => ⟨h.1.le, h.2.le, fun _ => h⟩, fun h => h.inside hclosed⟩

end Scale

end RoundingInterval

end UriTemplate
