import UriTemplate.Number.Notation

/-!
# Decimal numbers

A decimal number is an integer mantissa below `2 ^ 96` with up to 28 digits after the point.
`Decimal.toText` writes all digits of its scale; `Decimal.normalize` drops the zeros at the end of
the fraction first.
-/

namespace UriTemplate

/-- The number `mantissa / 10 ^ scale`. -/
structure Decimal where
  mantissa : Int
  scale : Nat
  mantissa_lt : mantissa.natAbs < twoPow 96
  scale_le : scale ≤ 28
deriving DecidableEq

namespace Decimal

/-- The decimal number with a mantissa and a scale within the bounds. -/
def ofScaled? (mantissa : Int) (scale : Nat) : Option Decimal :=
  if h : mantissa.natAbs < twoPow 96 ∧ scale ≤ 28 then some ⟨mantissa, scale, h.1, h.2⟩ else none

/-- A mantissa and a scale without zeros at the end of the fraction. -/
def dropZeros (mantissa : Nat) : Nat → Nat × Nat
  | 0 => (mantissa, 0)
  | scale + 1 =>
    if mantissa % 10 = 0 then dropZeros (mantissa / 10) scale else (mantissa, scale + 1)

theorem dropZeros_fst_le (mantissa scale : Nat) : (dropZeros mantissa scale).1 ≤ mantissa := by
  induction scale generalizing mantissa with
  | zero => exact Nat.le_refl _
  | succ scale ih =>
    unfold dropZeros
    split
    · exact Nat.le_trans (ih _) (Nat.div_le_self _ _)
    · exact Nat.le_refl _

theorem dropZeros_snd_le (mantissa scale : Nat) : (dropZeros mantissa scale).2 ≤ scale := by
  induction scale generalizing mantissa with
  | zero => exact Nat.le_refl _
  | succ scale ih =>
    unfold dropZeros
    split
    · exact Nat.le_succ_of_le (ih _)
    · exact Nat.le_refl _

/-- The same number without zeros at the end of its fraction. -/
def normalize (d : Decimal) : Decimal where
  mantissa := d.mantissa.sign * (dropZeros d.mantissa.natAbs d.scale).1
  scale := (dropZeros d.mantissa.natAbs d.scale).2
  mantissa_lt := by
    have h₁ := dropZeros_fst_le d.mantissa.natAbs d.scale
    have h₂ := d.mantissa_lt
    have h₃ : d.mantissa.sign.natAbs ≤ 1 := by rw [Int.natAbs_sign]; split <;> omega
    rw [Int.natAbs_mul, Int.natAbs_natCast]
    calc _ ≤ 1 * (dropZeros d.mantissa.natAbs d.scale).1 := Nat.mul_le_mul_right _ h₃
      _ < twoPow 96 := by omega
  scale_le := Nat.le_trans (dropZeros_snd_le _ _) d.scale_le

/-- The number with all digits of its scale. -/
def toText (d : Decimal) : Text :=
  (if d.mantissa < 0 then ['-'] else []) ++ placePoint (numeral d.mantissa.natAbs) d.scale

end Decimal

end UriTemplate
