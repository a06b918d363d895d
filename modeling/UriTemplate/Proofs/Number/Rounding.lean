import Mathlib.Algebra.Order.Ring.Abs
import UriTemplate.Proofs.Number.Gaps

/-!
# Rounding to a binary format

A rational number is rounded to the nearest number of a format; of two that are equally near the one
with the even significand is taken (`RoundsTo`). The rule knows no greatest exponent, so that what
lies too far beyond the greatest finite number is rounded to no finite one. What is rounded to a
number reaches to the middle of the gaps on both sides (`nearest_iff_holds`), so a number is rounded
to one number at most (`Nearest.eq`) and rounding keeps the order (`Nearest.value_le`).
-/

namespace UriTemplate
set_option autoImplicit false

/-! ## Distances -/

section Distance

variable {q v y : Rat}

/-- The middle of two numbers parts what is nearer to the one from what is nearer to the other. -/
theorem abs_sub_le_abs_sub_iff (h : v < y) : |q - v| ≤ |q - y| ↔ 2 * q ≤ v + y := by
  have hdiff : (q - y) ^ 2 - (q - v) ^ 2 = (y - v) * (v + y - 2 * q) := by ring
  have hpos : 0 < y - v := sub_pos.2 h
  rw [← sq_le_sq, ← sub_nonneg, hdiff, mul_nonneg_iff_of_pos_left hpos, sub_nonneg]

theorem abs_sub_le_abs_sub_iff' (h : v < y) : |q - y| ≤ |q - v| ↔ v + y ≤ 2 * q := by
  have hdiff : (q - v) ^ 2 - (q - y) ^ 2 = (y - v) * (2 * q - (v + y)) := by ring
  have hpos : 0 < y - v := sub_pos.2 h
  rw [← sq_le_sq, ← sub_nonneg, hdiff, mul_nonneg_iff_of_pos_left hpos, sub_nonneg]

theorem abs_sub_eq_abs_sub_iff (h : v < y) : |q - v| = |q - y| ↔ 2 * q = v + y := by
  rw [le_antisymm_iff, le_antisymm_iff, abs_sub_le_abs_sub_iff h, abs_sub_le_abs_sub_iff' h]

end Distance

namespace Format

variable (f : Format)

/-- The number is nearest to `q`, and even if another one is as near. -/
structure Nearest (q : Rat) (m : Dyadic) : Prop where
  le : ∀ y, f.Represents y → |q - m.value| ≤ |q - y|
  tie : ∀ y, f.Represents y → |q - y| = |q - m.value| → y = m.value ∨ m.significand % 2 = 0

variable {f} {m m' : Dyadic} {p q : Rat}

/-! ## The interval around a number -/

theorem four_mul_zpow_sub_two (e : Int) : 4 * (2 : Rat) ^ (e - 2) = 2 ^ e := by
  rw [zpow_eq_two_mul_zpow_pred e, zpow_eq_two_mul_zpow_pred (e - 1), sub_sub, ← mul_assoc]
  norm_num

theorem units_high_around (f : Format) (m : Dyadic) :
    2 * (RoundingInterval.around f m).units (RoundingInterval.around f m).high =
      m.value + next m := by
  show 2 * (((4 * m.significand + 2 : Nat) : Rat) * 2 ^ (m.exponent - 2)) =
    m.significand * 2 ^ m.exponent + (m.significand + 1) * 2 ^ m.exponent
  rw [← four_mul_zpow_sub_two m.exponent]
  push_cast
  ring

theorem units_low_around (f : Format) (hpos : 0 < m.significand) :
    2 * (RoundingInterval.around f m).units (RoundingInterval.around f m).low =
      f.previous m + m.value := by
  have hlow : ((RoundingInterval.around f m).low : Rat) = 4 * m.significand -
      if m.significand = twoPow (f.precision - 1) ∧ f.minExponent < m.exponent then 1 else 2 := by
    show ((4 * m.significand - if _ then 1 else 2 : Nat) : Rat) = _
    rw [Nat.cast_sub (by split <;> omega)]
    push_cast
    rfl
  show 2 * (((RoundingInterval.around f m).low : Rat) * 2 ^ (m.exponent - 2)) =
    f.previous m + m.significand * 2 ^ m.exponent
  unfold previous
  rw [hlow, ← four_mul_zpow_sub_two m.exponent]
  split <;> ring

theorem closed_around_iff (f : Format) (m : Dyadic) :
    (RoundingInterval.around f m).closed = true ↔ m.significand % 2 = 0 := decide_eq_true_iff

theorem value_lt_next (m : Dyadic) : m.value < next m := by
  unfold Dyadic.value next
  have hunit : (0 : Rat) < 2 ^ m.exponent := by positivity
  linarith

theorem previous_lt_value (f : Format) (m : Dyadic) : f.previous m < m.value := by
  unfold Dyadic.value previous
  have hunit : (0 : Rat) < 2 ^ m.exponent := by positivity
  split <;> linarith

/-- The neighbours on both sides keep what is rounded to the number within the interval. -/
theorem Nearest.holds (hq : f.Nearest q m) (h : f.IsNormalized m) (hf : 0 < f.precision)
    (hpos : 0 < m.significand) : (RoundingInterval.around f m).Holds q := by
  have hhigh := units_high_around f m
  have hlow := units_low_around f hpos
  have hnext := value_lt_next m
  have hprevious := previous_lt_value f m
  have habove := hq.le _ (h.represents_next hf)
  have hbelow := hq.le _ (h.represents_previous hf hpos)
  rw [abs_sub_le_abs_sub_iff hnext] at habove
  rw [abs_sub_le_abs_sub_iff' hprevious] at hbelow
  refine ⟨by linarith, by linarith, fun hopen => ⟨lt_of_le_of_ne (by linarith) fun hend => ?_,
    lt_of_le_of_ne (by linarith) fun hend => ?_⟩⟩
  -- at an end the neighbour is as near, so the number would be even and the interval closed
  · have htie := hq.tie _ (h.represents_previous hf hpos)
      ((abs_sub_eq_abs_sub_iff hprevious).2 (by linarith))
    have hclosed := (closed_around_iff f m).2 (htie.resolve_left hprevious.ne)
    rw [hopen] at hclosed
    cases hclosed
  · have htie := hq.tie _ (h.represents_next hf)
      ((abs_sub_eq_abs_sub_iff hnext).2 (by linarith)).symm
    have hclosed := (closed_around_iff f m).2 (htie.resolve_left hnext.ne')
    rw [hopen] at hclosed
    cases hclosed

/-- All numbers of the format but one lie beyond the gaps. -/
theorem nearest_of_holds (hq : (RoundingInterval.around f m).Holds q) (h : f.IsNormalized m)
    (hf : 0 < f.precision) (hpos : 0 < m.significand) : f.Nearest q m := by
  have hhigh := units_high_around f m
  have hlow := units_low_around f hpos
  have hlow_le := hq.low_le
  have hle_high := hq.le_high
  refine ⟨fun y hy => ?_, fun y hy htie => ?_⟩
  · rcases lt_trichotomy y m.value with hlt | rfl | hlt
    · have hgap := h.le_previous hf hy hlt
      exact (abs_sub_le_abs_sub_iff' hlt).2 (by linarith)
    · exact le_refl _
    · have hgap := h.next_le hf hy hlt
      exact (abs_sub_le_abs_sub_iff hlt).2 (by linarith)
  · rw [← closed_around_iff f m, ← Bool.not_eq_false]
    by_contra hnot
    rw [not_or, not_not] at hnot
    obtain ⟨hne, hopen⟩ := hnot
    have hinside := hq.inside hopen
    rcases lt_or_gt_of_ne hne with hlt | hlt
    · have hgap := h.le_previous hf hy hlt
      have hmiddle := (abs_sub_eq_abs_sub_iff hlt).1 htie
      linarith
    · have hgap := h.next_le hf hy hlt
      have hmiddle := (abs_sub_eq_abs_sub_iff hlt).1 htie.symm
      linarith

/-- **What is rounded to a number** is the interval around it. -/
theorem nearest_iff_holds (h : f.IsNormalized m) (hf : 0 < f.precision)
    (hpos : 0 < m.significand) : f.Nearest q m ↔ (RoundingInterval.around f m).Holds q :=
  ⟨fun hq => hq.holds h hf hpos, fun hq => nearest_of_holds hq h hf hpos⟩

/-! ## Order -/

/-- Rounding keeps the order. -/
theorem Nearest.value_le (hp : f.Nearest p m) (hq : f.Nearest q m') (h : f.IsNormalized m)
    (h' : f.IsNormalized m') (hlt : p < q) : m.value ≤ m'.value := by
  by_contra hgt
  rw [not_le] at hgt
  have hp' := (abs_sub_le_abs_sub_iff' hgt).1 (hp.le _ h'.represents)
  have hq' := (abs_sub_le_abs_sub_iff hgt).1 (hq.le _ h.represents)
  linarith

/-- Behind an even significand comes an odd one. -/
theorem odd_of_value_eq_next (h : f.IsNormalized m) (h' : f.IsNormalized m') (hf : 0 < f.precision)
    (heven : m.significand % 2 = 0) (hvalue : m'.value = next m) : m'.significand % 2 = 1 := by
  have heq : (m'.significand : Rat) * 2 ^ m'.exponent =
      (m.significand + 1 : Nat) * 2 ^ m.exponent := by
    rw [Nat.cast_add, Nat.cast_one]
    exact hvalue
  rcases lt_trichotomy m'.exponent m.exponent with hlt | hexponent | hlt
  -- a lower exponent asks for more bits than a significand has
  · have hsignificand := significand_eq_mul_pow hlt.le heq
    have hfull := h.full (lt_of_le_of_lt h'.le hlt)
    have htwo : 2 ≤ 2 ^ (m.exponent - m'.exponent).toNat := Nat.le_self_pow (by omega) 2
    have hmul := Nat.mul_le_mul_left (m.significand + 1) htwo
    have hpow := two_mul_twoPow_pred hf
    have hlt' := h'.lt
    omega
  · have hsignificand := significand_eq_mul_pow hexponent.le heq
    rw [hexponent, sub_self, Int.toNat_zero, pow_zero, mul_one] at hsignificand
    omega
  -- with a higher exponent the successor of the even significand would be even
  · have hsignificand := significand_eq_mul_pow hlt.le heq.symm
    obtain ⟨n, hn⟩ : ∃ n, (m'.exponent - m.exponent).toNat = n + 1 :=
      ⟨(m'.exponent - m.exponent).toNat - 1, by omega⟩
    rw [hn, pow_succ, ← mul_assoc] at hsignificand
    omega

/-- Of two numbers that a number is rounded to none is greater: it would be the next one, and only
one of the two could be even. -/
theorem Nearest.value_ge (hm : f.Nearest q m) (hm' : f.Nearest q m') (h : f.IsNormalized m)
    (h' : f.IsNormalized m') (hf : 0 < f.precision) : m'.value ≤ m.value := by
  by_contra hlt
  rw [not_le] at hlt
  have hnear := (abs_sub_le_abs_sub_iff hlt).1 (hm.le _ h'.represents)
  have hnear' := (abs_sub_le_abs_sub_iff' hlt).1 (hm'.le _ h.represents)
  have htie := (abs_sub_eq_abs_sub_iff (q := q) hlt).2 (le_antisymm hnear hnear')
  have heven := (hm.tie _ h'.represents htie.symm).resolve_left hlt.ne'
  have heven' := (hm'.tie _ h.represents htie).resolve_left hlt.ne
  have hgap := h.next_le hf h'.represents hlt
  have hnext := (abs_sub_le_abs_sub_iff (value_lt_next m)).1 (hm.le _ (h.represents_next hf))
  have hodd := odd_of_value_eq_next h h' hf heven (by linarith)
  omega

/-- **A number is rounded to one number** at most. -/
theorem Nearest.eq (hm : f.Nearest q m) (hm' : f.Nearest q m') (h : f.IsNormalized m)
    (h' : f.IsNormalized m') (hf : 0 < f.precision) : m = m' :=
  h.eq_of_value_eq h' hf
    (le_antisymm (hm'.value_ge hm h' h hf) (hm.value_ge hm' h h' hf))

end Format

/-! ## Numbers with a sign -/

namespace Binary

variable {f : Format}

/-- The sign as a factor. -/
def sign (x : Binary f) : Rat := if x.isNegative then -1 else 1

/-- The number without its sign. -/
def magnitude (x : Binary f) : Dyadic := f.magnitude x.pattern

/-- The exact number that the pattern of a finite number stands for. -/
def value (x : Binary f) : Rat := x.sign * x.magnitude.value

/-- The number of the format that `q` is rounded to: none is nearer, and if another one is as near,
the significand is even. -/
structure RoundsTo (q : Rat) (x : Binary f) : Prop where
  isFinite : x.isFinite = true
  le : ∀ y, f.Represents y → |q - x.value| ≤ |q - y|
  tie : ∀ y, f.Represents y → |q - y| = |q - x.value| →
    y = x.value ∨ x.magnitude.significand % 2 = 0

variable {x y : Binary f} {q : Rat}

theorem isNormalized_magnitude (hf : 0 < f.precision) (x : Binary f) :
    f.IsNormalized x.magnitude := Format.isNormalized_magnitude hf x.pattern

theorem sign_ne_zero (x : Binary f) : x.sign ≠ 0 := by
  unfold sign
  split <;> norm_num

theorem sign_mul_sign (x : Binary f) : x.sign * x.sign = 1 := by
  unfold sign
  split <;> norm_num

theorem abs_sign_mul (x : Binary f) (q : Rat) : |x.sign * q| = |q| := by
  unfold sign
  split
  · rw [neg_one_mul, abs_neg]
  · rw [one_mul]

theorem represents_sign_mul (x : Binary f) {v : Rat} (h : f.Represents v) :
    f.Represents (x.sign * v) := by
  unfold sign
  split
  · rw [neg_one_mul]
    exact Format.represents_neg h
  · rwa [one_mul]

/-- The factor of the sign can change sides, since it is its own inverse. -/
theorem abs_sub_sign_mul (x : Binary f) (q v : Rat) : |q - x.sign * v| = |x.sign * q - v| := by
  rw [← abs_sign_mul x, mul_sub, ← mul_assoc, sign_mul_sign, one_mul]

theorem sign_mul_eq_iff (x : Binary f) {u v : Rat} : x.sign * u = v ↔ u = x.sign * v := by
  constructor
  · rintro rfl
    rw [← mul_assoc, sign_mul_sign, one_mul]
  · rintro rfl
    rw [← mul_assoc, sign_mul_sign, one_mul]

/-- The rule is the same on both sides of zero. -/
theorem roundsTo_iff :
    RoundsTo q x ↔ x.isFinite = true ∧ f.Nearest (x.sign * q) x.magnitude := by
  have hdistance : |q - x.value| = |x.sign * q - x.magnitude.value| := abs_sub_sign_mul x q _
  constructor
  · intro h
    refine ⟨h.isFinite, fun v hv => ?_, fun v hv htie => ?_⟩
    · rw [← hdistance, ← abs_sub_sign_mul]
      exact h.le _ (represents_sign_mul x hv)
    · rw [← hdistance, ← abs_sub_sign_mul] at htie
      refine (h.tie _ (represents_sign_mul x hv) htie).imp_left fun heq => ?_
      rw [sign_mul_eq_iff, value, ← mul_assoc, sign_mul_sign, one_mul] at heq
      exact heq
  · rintro ⟨hfinite, h⟩
    have hback (v : Rat) : |q - v| = |x.sign * q - x.sign * v| := by
      rw [← mul_sub, abs_sign_mul]
    refine ⟨hfinite, fun v hv => ?_, fun v hv htie => ?_⟩
    · rw [hdistance, hback]
      exact h.le _ (represents_sign_mul x hv)
    · rw [hdistance, hback] at htie
      exact (h.tie _ (represents_sign_mul x hv) htie).imp_left (sign_mul_eq_iff x).1

theorem value_eq_zero_iff : x.value = 0 ↔ x.magnitude.significand = 0 := by
  have hunit : (2 : Rat) ^ x.magnitude.exponent ≠ 0 := by positivity
  rw [value, Dyadic.value, mul_eq_zero, mul_eq_zero, or_iff_right (sign_ne_zero x),
    or_iff_left hunit, Nat.cast_eq_zero]

theorem abs_value (x : Binary f) : |x.value| = x.magnitude.value := by
  rw [value, abs_sign_mul]
  apply abs_of_nonneg
  unfold Dyadic.value
  positivity

/-- A pattern is its sign bit and the bits below it. -/
theorem eq_of_magnitude_eq (hf : 0 < f.precision) (hsign : x.isNegative = y.isNegative)
    (hmagnitude : x.magnitude = y.magnitude) : x = y := by
  have hwidth : twoPow f.width = 2 * twoPow (f.width - 1) :=
    (two_mul_twoPow_pred (Nat.lt_of_lt_of_le hf (Nat.le_add_right _ _))).symm
  have hbits (z : Binary f) : z.bits.toNat =
      (if z.isNegative then twoPow (f.width - 1) else 0) + z.pattern := by
    have hlt : z.bits.toNat < 2 * twoPow (f.width - 1) := hwidth ▸ z.bits.isLt
    unfold isNegative pattern
    split
    · rename_i hle
      rw [decide_eq_true_eq] at hle
      rw [Nat.mod_eq_sub_mod hle, Nat.mod_eq_of_lt (by omega)]
      omega
    · rename_i hnot
      rw [decide_eq_true_eq] at hnot
      rw [Nat.mod_eq_of_lt (by omega), Nat.zero_add]
  have heq : x.bits = y.bits := by
    apply BitVec.eq_of_toNat_eq
    rw [hbits x, hbits y, hsign, Format.magnitude_inj hmagnitude]
  cases x
  cases y
  cases heq
  rfl

end Binary

end UriTemplate
