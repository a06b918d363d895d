import UriTemplate.Proofs.Number.Exact

/-!
# The numbers of a binary format

A number of a format is a significand of so many bits times a power of two (`Format.Represents`).
The patterns stand for them without leaving out a leading bit where there is one to spare, and so for
each of them in one way only (`IsNormalized.eq_of_value_eq`). Between neighbours there are gaps: no
number of the format lies between one of them and the next greater one (`IsNormalized.next_le`) or the
next smaller one (`IsNormalized.le_previous`).
-/

namespace UriTemplate
set_option autoImplicit false

theorem twoPow_pos (n : Nat) : 0 < twoPow n := Nat.pow_pos (by omega)

theorem two_mul_twoPow_pred {n : Nat} (h : 0 < n) : 2 * twoPow (n - 1) = twoPow n := by
  obtain ⟨n, rfl⟩ := Nat.exists_eq_add_of_lt h
  rw [twoPow, twoPow, Nat.zero_add, Nat.add_sub_cancel]
  exact (Nat.pow_succ').symm

theorem zpow_eq_two_mul_zpow_pred (e : Int) : (2 : Rat) ^ e = 2 * 2 ^ (e - 1) := by
  rw [← zpow_one_add₀ two_ne_zero, add_sub_cancel]

/-- Of two equal numbers the one with the lower exponent has the greater significand. -/
theorem significand_eq_mul_pow {a b : Nat} {d e : Int} (h : d ≤ e)
    (heq : (a : Rat) * 2 ^ d = b * 2 ^ e) : a = b * 2 ^ (e - d).toNat := by
  have hsplit : (2 : Rat) ^ e = 2 ^ (e - d).toNat * 2 ^ d := by
    rw [← zpow_natCast, ← zpow_add₀ two_ne_zero]
    congr 1
    omega
  have hunit : (2 : Rat) ^ d ≠ 0 := by positivity
  rw [hsplit, ← mul_assoc] at heq
  exact_mod_cast mul_right_cancel₀ hunit heq

namespace Format

variable (f : Format)

/-! ## The numbers of a format -/

/-- A number with a significand of the format and no greatest exponent. -/
def Represents (y : Rat) : Prop :=
  ∃ s e : Int, s.natAbs < twoPow f.precision ∧ f.minExponent ≤ e ∧ y = s * 2 ^ e

variable {f}

theorem represents_neg {y : Rat} (h : f.Represents y) : f.Represents (-y) := by
  obtain ⟨s, e, hs, he, rfl⟩ := h
  refine ⟨-s, e, by rwa [Int.natAbs_neg], he, ?_⟩
  rw [Int.cast_neg, neg_mul]

variable (f) in
/-- Above the least exponent no leading bit of the significand is left out. -/
structure IsNormalized (m : Dyadic) : Prop where
  lt : m.significand < twoPow f.precision
  le : f.minExponent ≤ m.exponent
  full : f.minExponent < m.exponent → twoPow (f.precision - 1) ≤ m.significand

/-- Every pattern stands for such a number. -/
theorem isNormalized_magnitude (hf : 0 < f.precision) (pattern : Nat) :
    f.IsNormalized (f.magnitude pattern) := by
  have hpow := two_mul_twoPow_pred hf
  have hfraction := Nat.mod_lt pattern (twoPow_pos (f.precision - 1))
  unfold magnitude
  simp only
  generalize pattern / twoPow (f.precision - 1) = field
  split
  · exact ⟨by simp only; omega, le_refl _, fun h => absurd h (lt_irrefl _)⟩
  · exact ⟨by simp only; omega, by simp only; omega, fun _ => by simp only; omega⟩

/-- The leading bit of the significand tells whether the exponent field is zero. -/
theorem magnitude_inj {p p' : Nat} (h : f.magnitude p = f.magnitude p') : p = p' := by
  have hfraction := Nat.mod_lt p (twoPow_pos (f.precision - 1))
  have hfraction' := Nat.mod_lt p' (twoPow_pos (f.precision - 1))
  have hparts : p / twoPow (f.precision - 1) = p' / twoPow (f.precision - 1) ∧
      p % twoPow (f.precision - 1) = p' % twoPow (f.precision - 1) := by
    unfold magnitude at h
    simp only at h
    generalize p / twoPow (f.precision - 1) = field at h
    generalize p' / twoPow (f.precision - 1) = field' at h
    split at h <;> split at h <;> simp only [Dyadic.mk.injEq] at h <;> omega
  rw [← Nat.div_add_mod p (twoPow (f.precision - 1)), hparts.1, hparts.2, Nat.div_add_mod]

namespace IsNormalized

variable {m m' : Dyadic} {q y : Rat}

/-- The exact values tell normalized numbers apart: with a lower exponent the significand of the
other one would not fit. -/
theorem exponent_le (h : f.IsNormalized m) (h' : f.IsNormalized m') (hf : 0 < f.precision)
    (hvalue : m.value = m'.value) : m'.exponent ≤ m.exponent := by
  by_contra hlt
  have hfull := h'.full (by have := h.le; omega)
  have hpow := two_mul_twoPow_pred hf
  have hsignificand : m.significand = m'.significand * 2 ^ (m'.exponent - m.exponent).toNat :=
    significand_eq_mul_pow (by omega) hvalue
  have htwo : 2 ≤ 2 ^ (m'.exponent - m.exponent).toNat := Nat.le_self_pow (by omega) 2
  have hmul := Nat.mul_le_mul hfull htwo
  have hlt' := h.lt
  omega

theorem eq_of_value_eq (h : f.IsNormalized m) (h' : f.IsNormalized m') (hf : 0 < f.precision)
    (hvalue : m.value = m'.value) : m = m' := by
  have hexponent : m.exponent = m'.exponent :=
    le_antisymm (h'.exponent_le h hf hvalue.symm) (h.exponent_le h' hf hvalue)
  have hunit : (2 : Rat) ^ m'.exponent ≠ 0 := by positivity
  unfold Dyadic.value at hvalue
  rw [hexponent] at hvalue
  have hsignificand : m.significand = m'.significand := by
    exact_mod_cast mul_right_cancel₀ hunit hvalue
  cases m
  cases m'
  cases hexponent
  cases hsignificand
  rfl

theorem represents (h : f.IsNormalized m) : f.Represents m.value := by
  refine ⟨m.significand, m.exponent, by simpa using h.lt, h.le, ?_⟩
  rw [Dyadic.value, Int.cast_natCast]

end IsNormalized

/-! ## Gaps -/

/-- The next greater number of a format. -/
def next (m : Dyadic) : Rat := (m.significand + 1) * 2 ^ m.exponent

variable (f) in
/-- The next smaller number of a format, which is only half as far away at a power of two. -/
def previous (m : Dyadic) : Rat :=
  if m.significand = twoPow (f.precision - 1) ∧ f.minExponent < m.exponent then
    (m.significand - 1 / 2) * 2 ^ m.exponent
  else (m.significand - 1) * 2 ^ m.exponent

/-- A number of the format is a multiple of a power of two, unless it lies below all numbers whose
significands end there. -/
theorem Represents.multiple_or_below {y : Rat} (hy : f.Represents y) (hf : 0 < f.precision)
    (exponent : Int) : (∃ n : Int, y = n * 2 ^ exponent) ∨
      f.minExponent < exponent ∧ y ≤ (twoPow (f.precision - 1) - 1 / 2) * 2 ^ exponent := by
  obtain ⟨s, e, hs, he, rfl⟩ := hy
  by_cases hle : exponent ≤ e
  · refine .inl ⟨s * 2 ^ (e - exponent).toNat, ?_⟩
    rw [Int.cast_mul, Int.cast_pow, Int.cast_ofNat, mul_assoc, ← zpow_natCast,
      ← zpow_add₀ two_ne_zero]
    congr 2
    omega
  -- with a lower exponent not even the greatest significand reaches a number with all its bits
  · refine .inr ⟨by omega, ?_⟩
    have hs' : (s : Rat) ≤ twoPow f.precision - 1 := by
      have hle : s ≤ (twoPow f.precision : Int) - 1 := by omega
      exact_mod_cast hle
    have hpow : (twoPow f.precision : Rat) = 2 * twoPow (f.precision - 1) := by
      exact_mod_cast (two_mul_twoPow_pred hf).symm
    have hone : (1 : Rat) ≤ twoPow (f.precision - 1) := by
      exact_mod_cast twoPow_pos (f.precision - 1)
    have hmono : (2 : Rat) ^ e ≤ 2 ^ (exponent - 1) := zpow_le_zpow_right₀ one_le_two (by omega)
    calc (s : Rat) * 2 ^ e
      _ ≤ (twoPow f.precision - 1) * 2 ^ e := mul_le_mul_of_nonneg_right hs' (by positivity)
      _ ≤ (twoPow f.precision - 1) * 2 ^ (exponent - 1) :=
        mul_le_mul_of_nonneg_left hmono (by linarith)
      _ = (twoPow (f.precision - 1) - 1 / 2) * 2 ^ exponent := by
        rw [hpow, zpow_eq_two_mul_zpow_pred exponent]
        ring

namespace IsNormalized

variable {m m' : Dyadic} {q y : Rat}

/-- No number of the format lies in the gap behind a number. -/
theorem next_le (h : f.IsNormalized m) (hf : 0 < f.precision) (hy : f.Represents y)
    (hlt : m.value < y) : next m ≤ y := by
  have hunit : (0 : Rat) < 2 ^ m.exponent := by positivity
  rcases hy.multiple_or_below hf m.exponent with ⟨n, rfl⟩ | ⟨hexponent, hle⟩
  · have hn : (m.significand : Int) + 1 ≤ n := by
      have := lt_of_mul_lt_mul_right hlt hunit.le
      exact_mod_cast this
    exact mul_le_mul_of_nonneg_right (by exact_mod_cast hn) hunit.le
  · have hfull : (twoPow (f.precision - 1) : Rat) ≤ m.significand := by
      exact_mod_cast h.full hexponent
    have := lt_of_mul_lt_mul_right (hlt.trans_le hle) hunit.le
    linarith

/-- No number of the format lies in the gap before a number. -/
theorem le_previous (h : f.IsNormalized m) (hf : 0 < f.precision) (hy : f.Represents y)
    (hlt : y < m.value) : y ≤ f.previous m := by
  have hunit : (0 : Rat) < 2 ^ m.exponent := by positivity
  rcases hy.multiple_or_below hf m.exponent with ⟨n, rfl⟩ | ⟨hexponent, hle⟩
  · have hn : (n : Rat) ≤ m.significand - 1 := by
      have hlt' : n < (m.significand : Int) := by
        have := lt_of_mul_lt_mul_right hlt hunit.le
        exact_mod_cast this
      have hle : n ≤ (m.significand : Int) - 1 := by omega
      exact_mod_cast hle
    unfold previous
    split
    · exact mul_le_mul_of_nonneg_right (by linarith) hunit.le
    · exact mul_le_mul_of_nonneg_right hn hunit.le
  · unfold previous
    split
    · rename_i hpower
      rwa [hpower.1]
    · rename_i hnot
      have hfull := h.full hexponent
      have hmore : (twoPow (f.precision - 1) : Rat) + 1 ≤ m.significand := by
        have : twoPow (f.precision - 1) + 1 ≤ m.significand := by omega
        exact_mod_cast this
      exact hle.trans (mul_le_mul_of_nonneg_right (by linarith) hunit.le)

/-- Behind the greatest significand comes the next power of two. -/
theorem represents_next (h : f.IsNormalized m) (hf : 0 < f.precision) :
    f.Represents (next m) := by
  have hlt := h.lt
  have hle := h.le
  by_cases hlast : m.significand + 1 < twoPow f.precision
  · refine ⟨m.significand + 1, m.exponent, by omega, hle, ?_⟩
    rw [next, Int.cast_add, Int.cast_natCast, Int.cast_one]
  · have hpow := two_mul_twoPow_pred hf
    have hpos := twoPow_pos (f.precision - 1)
    have hsignificand : m.significand + 1 = 2 * twoPow (f.precision - 1) := by omega
    have hcast : (m.significand : Rat) + 1 = 2 * twoPow (f.precision - 1) := by
      exact_mod_cast hsignificand
    refine ⟨twoPow (f.precision - 1), m.exponent + 1, by omega, by omega, ?_⟩
    rw [next, hcast, Int.cast_natCast, zpow_eq_two_mul_zpow_pred (m.exponent + 1),
      add_sub_cancel_right]
    ring

/-- Before a power of two comes the greatest significand with the exponent below. -/
theorem represents_previous (h : f.IsNormalized m) (hf : 0 < f.precision)
    (hpos : 0 < m.significand) : f.Represents (f.previous m) := by
  have hlt := h.lt
  have hle := h.le
  have hpow := two_mul_twoPow_pred hf
  unfold previous
  split
  · rename_i hpower
    refine ⟨2 * m.significand - 1, m.exponent - 1, by omega, by omega, ?_⟩
    rw [zpow_eq_two_mul_zpow_pred m.exponent]
    push_cast
    ring
  · refine ⟨m.significand - 1, m.exponent, by omega, hle, ?_⟩
    push_cast
    rfl

end IsNormalized

end Format

end UriTemplate
