import UriTemplate.Scalar
import UriTemplate.Proofs.Number.Notation
import UriTemplate.Proofs.Number.Rounding
import UriTemplate.Proofs.Number.Shortest

/-!
# Floating-point numbers and their texts

The canonical text of a floating-point number is the numeral of a shortest decimal that is rounded
to it (`Binary.roundsTo_value_literal`, `Binary.hasDigits_literal`), positional from about `10 ^ -5`
up to `10 ^ 15` and with an exponent elsewhere. Since a decimal is rounded to one number only, numbers
of a format have the same text exactly if they are equal, apart from the two zeros
(`Binary.write_eq_iff`).
-/

namespace UriTemplate
set_option autoImplicit false

theorem encloses_around (f : Format) {m : Dyadic} (hpos : 0 < m.significand) :
    (RoundingInterval.around f m).Encloses := by
  refine ⟨?_, ?_, ?_⟩
  · show 0 < 4 * m.significand - if _ then 1 else 2
    split <;> omega
  · show 4 * m.significand - (if _ then 1 else 2) < 4 * m.significand
    split <;> omega
  · show 4 * m.significand < 4 * m.significand + 2
    omega

theorem isShortest_around (f : Format) (tie : Tie) {m : Dyadic} (hpos : 0 < m.significand) :
    (RoundingInterval.around f m).IsShortest (m.shortest f tie) :=
  RoundingInterval.isShortest_shortest (encloses_around f hpos) tie

/-! ## The bounds of the positional form -/

theorem value_bound_upper : (FloatStyle.bound .double 15).value = 10 ^ 15 := by
  have hbound : FloatStyle.bound .double 15 = ⟨8000000000000000, -3⟩ := by decide
  rw [hbound, Dyadic.value]
  norm_num

/-- The number of 64 bits nearest to `10 ^ -5`. -/
def lowerBound : Binary .double := .ofPattern false 4532020583610935537

theorem magnitude_lowerBound : lowerBound.magnitude = ⟨5902958103587057, -69⟩ := by decide

theorem value_lowerBound : lowerBound.value = 5902958103587057 * 2 ^ (-69 : Int) := by
  have hsign : lowerBound.isNegative = false := by decide
  rw [Binary.value, Binary.sign, hsign, if_neg Bool.false_ne_true, one_mul, magnitude_lowerBound,
    Dyadic.value, Nat.cast_ofNat]

theorem value_bound_lower : (FloatStyle.bound .double (-5)).value = lowerBound.value := by
  have hbound : FloatStyle.bound .double (-5) = ⟨5902958103587057, -69⟩ := by decide
  rw [hbound, value_lowerBound, Dyadic.value, Nat.cast_ofNat]

theorem roundsTo_lowerBound : Binary.RoundsTo (10 ^ (-5 : Int)) lowerBound := by
  have hf : 0 < Format.double.precision := by decide
  have hsign : lowerBound.isNegative = false := by decide
  have hcontains :
      (RoundingInterval.around .double lowerBound.magnitude).contains (-5) 1 = true := by
    decide
  rw [RoundingInterval.contains_iff, Nat.cast_one, one_mul] at hcontains
  rw [Binary.roundsTo_iff, Binary.sign, hsign, if_neg Bool.false_ne_true, one_mul]
  exact ⟨by decide, Format.nearest_of_holds hcontains (Binary.isNormalized_magnitude hf _) hf
    (by decide)⟩

theorem isPositional_canonical_iff (m : Dyadic) (s : Scientific) :
    FloatStyle.canonical.isPositional m s = true ↔
      m.value < 10 ^ 15 ∧ lowerBound.value ≤ m.value := by
  show (m.lt (FloatStyle.bound .double 15) && !m.lt (FloatStyle.bound .double (-5))) = true ↔ _
  rw [Bool.and_eq_true, Bool.not_eq_true', ← Bool.not_eq_true, Dyadic.lt_iff, Dyadic.lt_iff,
    value_bound_upper, value_bound_lower, not_lt]

namespace Binary

variable {f : Format} {x y : Binary f}

/-! ## The numeral of a number -/

/-- The shortest decimal of a number other than zero, without its sign. -/
def decimal (x : Binary f) : Scientific := x.magnitude.shortest f .upward

/-- The numeral that is the canonical text of a number other than zero. -/
def literal (x : Binary f) : NumberLiteral :=
  if FloatStyle.canonical.isPositional x.magnitude x.decimal then
    x.decimal.positionalLiteral x.isNegative
  else x.decimal.exponentialLiteral x.isNegative

theorem write_of_isFinite (hfinite : x.isFinite = true) : FloatStyle.canonical.write x =
    if x.magnitude.significand = 0 then ['0']
    else NumberLiteral.minusSign x.isNegative ++
      if FloatStyle.canonical.isPositional x.magnitude x.decimal then x.decimal.positional
      else x.decimal.exponential false := by
  have hkind : x.kind = .finite x.isNegative x.magnitude := if_pos (of_decide_eq_true hfinite)
  unfold FloatStyle.write
  rw [hkind]
  simp only
  split
  · rw [show FloatStyle.canonical.signsZero = false from rfl, Bool.and_false]
    rfl
  · rfl

theorem write_of_value_eq_zero (hfinite : x.isFinite = true) (hzero : x.value = 0) :
    FloatStyle.canonical.write x = ['0'] := by
  rw [write_of_isFinite hfinite, if_pos (value_eq_zero_iff.1 hzero)]

theorem significand_pos (hne : x.value ≠ 0) : 0 < x.magnitude.significand :=
  Nat.pos_of_ne_zero fun hzero => hne (value_eq_zero_iff.2 hzero)

section NonZero

variable (hne : x.value ≠ 0)
include hne

theorem isShortest_decimal : (RoundingInterval.around f x.magnitude).IsShortest x.decimal :=
  isShortest_around f .upward (significand_pos hne)

theorem digits_decimal_pos : 0 < x.decimal.digits :=
  (isShortest_decimal hne).digits_pos (encloses_around f (significand_pos hne))

theorem digits_decimal_mod_ten : x.decimal.digits % 10 ≠ 0 :=
  (isShortest_decimal hne).digits_mod_ten

theorem write_eq_toText_literal (hfinite : x.isFinite = true) :
    FloatStyle.canonical.write x = x.literal.toText := by
  rw [write_of_isFinite hfinite, if_neg (significand_pos hne).ne', literal]
  split
  · rw [Scientific.toText_positionalLiteral _ (digits_decimal_pos hne)]
  · rw [Scientific.toText_exponentialLiteral]

theorem form_literal : if 10 ^ 15 ≤ |x.value| ∨ |x.value| < lowerBound.value then
    x.literal.IsScientific else x.literal.IsPlain := by
  have hpos := digits_decimal_pos hne
  have hdigits := digits_decimal_mod_ten hne
  have hform : ¬(10 ^ 15 ≤ |x.value| ∨ |x.value| < lowerBound.value) ↔
      FloatStyle.canonical.isPositional x.magnitude x.decimal = true := by
    rw [isPositional_canonical_iff, abs_value, not_or, not_le, not_lt]
  unfold literal
  split
  · rename_i hexponent
    rw [if_neg fun h => hform.2 h hexponent]
    exact Scientific.isScientific_exponentialLiteral _ hpos hdigits
  · rename_i hplain
    rw [if_pos (hform.1 hplain)]
    exact Scientific.isPlain_positionalLiteral _ hpos hdigits

theorem wellFormed_literal : x.literal.WellFormed := by
  have hform := form_literal hne
  split at hform
  · exact hform.toWellFormed
  · exact hform.toWellFormed

theorem ofText?_write (hfinite : x.isFinite = true) :
    NumberLiteral.ofText? (FloatStyle.canonical.write x) = some x.literal := by
  rw [write_eq_toText_literal hne hfinite]
  exact NumberLiteral.ofText?_toText (wellFormed_literal hne)

end NonZero

theorem negative_literal (x : Binary f) : x.literal.negative = x.isNegative := by
  unfold literal Scientific.positionalLiteral
  split
  · split <;> rfl
  · rfl

theorem value_literal (x : Binary f) : x.literal.value = x.sign * x.decimal.value := by
  unfold literal
  split
  · exact Scientific.value_positionalLiteral _ _
  · exact Scientific.value_exponentialLiteral _ _

theorem value_literal_ne_zero (hne : x.value ≠ 0) : x.literal.value ≠ 0 := by
  have hdigits : (x.decimal.digits : Rat) ≠ 0 := by
    exact_mod_cast (digits_decimal_pos hne).ne'
  have hpower : (10 : Rat) ^ x.decimal.exponent ≠ 0 := by positivity
  rw [value_literal]
  exact mul_ne_zero (sign_ne_zero x) (mul_ne_zero hdigits hpower)

theorem hasDigits_sign_mul (x : Binary f) {n : Nat} {q : Rat} (h : HasDigits n q) :
    HasDigits n (x.sign * q) := by
  obtain ⟨m, k, hm, rfl⟩ := h
  unfold sign
  split
  · refine ⟨-m, k, by rwa [Int.natAbs_neg], ?_⟩
    rw [Int.cast_neg, neg_one_mul, neg_mul]
  · exact ⟨m, k, hm, one_mul _⟩

/-! ## Rounding -/

section Rounding

variable (hf : 0 < f.precision) (hfinite : x.isFinite = true) (hne : x.value ≠ 0)
include hf hfinite hne

theorem roundsTo_iff_holds {q : Rat} :
    RoundsTo q x ↔ (RoundingInterval.around f x.magnitude).Holds (x.sign * q) := by
  rw [roundsTo_iff, Format.nearest_iff_holds (isNormalized_magnitude hf x) hf (significand_pos hne),
    and_iff_right hfinite]

/-- **The text is rounded back** to the number. -/
theorem roundsTo_value_literal : RoundsTo x.literal.value x := by
  rw [roundsTo_iff_holds hf hfinite hne, value_literal, ← mul_assoc, sign_mul_sign, one_mul]
  exact (isShortest_decimal hne).holds

/-- **No decimal with fewer digits** is rounded to the number. -/
theorem hasDigits_literal {q : Rat} {n : Nat} (hq : RoundsTo q x) (hdigits : HasDigits n q) :
    HasDigits n x.literal.value := by
  rw [roundsTo_iff_holds hf hfinite hne] at hq
  have hlt := (isShortest_decimal hne).digits_lt (encloses_around f (significand_pos hne)) hq
    (hasDigits_sign_mul x hdigits)
  rw [value_literal]
  exact hasDigits_sign_mul x ⟨x.decimal.digits, x.decimal.exponent, hlt, rfl⟩

end Rounding

/-! ## Equal texts -/

theorem eq_of_write_eq (hf : 0 < f.precision) (hx : x.isFinite = true) (hy : y.isFinite = true)
    (hxne : x.value ≠ 0) (hyne : y.value ≠ 0)
    (h : FloatStyle.canonical.write x = FloatStyle.canonical.write y) : x = y := by
  have hread := ofText?_write hxne hx
  rw [h, ofText?_write hyne hy, Option.some.injEq] at hread
  have hnegative : x.isNegative = y.isNegative := by
    rw [← negative_literal x, ← negative_literal y, hread]
  obtain ⟨-, hnear⟩ := roundsTo_iff.1 (roundsTo_value_literal hf hx hxne)
  obtain ⟨-, hnear'⟩ := roundsTo_iff.1 (roundsTo_value_literal hf hy hyne)
  have hsign : x.sign = y.sign := by rw [sign, sign, hnegative]
  rw [hread, ← hsign] at hnear'
  exact eq_of_magnitude_eq hf hnegative
    (hnear.eq hnear' (isNormalized_magnitude hf x) (isNormalized_magnitude hf y) hf)

/-- The text of zero stands for zero. -/
theorem write_ne_zero (hfinite : x.isFinite = true) (hne : x.value ≠ 0) :
    FloatStyle.canonical.write x ≠ ['0'] := by
  intro h
  have hread := ofText?_write hne hfinite
  have hzero : NumberLiteral.ofText? ['0'] = some ⟨false, ['0'], none, none⟩ := by decide
  rw [h, hzero, Option.some.injEq] at hread
  apply value_literal_ne_zero hne
  have hdigits : digitsValue ['0'] = 0 := rfl
  rw [← hread, NumberLiteral.value_of_noExponent rfl]
  simp [hdigits]

theorem write_eq_iff (hf : 0 < f.precision) (hx : x.isFinite = true) (hy : y.isFinite = true) :
    FloatStyle.canonical.write x = FloatStyle.canonical.write y ↔
      x = y ∨ x.value = 0 ∧ y.value = 0 := by
  constructor
  · intro h
    by_cases hxzero : x.value = 0
    · rw [write_of_value_eq_zero hx hxzero] at h
      exact .inr ⟨hxzero, by_contra fun hyne => write_ne_zero hy hyne h.symm⟩
    · by_cases hyzero : y.value = 0
      · rw [write_of_value_eq_zero hy hyzero] at h
        exact absurd h (write_ne_zero hx hxzero)
      · exact .inl (eq_of_write_eq hf hx hy hxzero hyzero h)
  · rintro (rfl | ⟨hxzero, hyzero⟩)
    · rfl
    · rw [write_of_value_eq_zero hx hxzero, write_of_value_eq_zero hy hyzero]

/-! ## Main statement -/

/-- The texts of the finite numbers of a format, with an exponent from `10 ^ 15` on and below a
lower bound. -/
structure ShortestTexts (f : Format) (text : Binary f → Text) (lower : Rat) : Prop where
  /-- The text is a numeral that is rounded back to the number, and no decimal with fewer digits is
  rounded to it. -/
  shortest : ∀ x, x.isFinite = true → x.value ≠ 0 → ∃ n : NumberLiteral,
    text x = n.toText ∧ NumberLiteral.ofText? (text x) = some n ∧ RoundsTo n.value x ∧
      (∀ q digits, RoundsTo q x → HasDigits digits q → HasDigits digits n.value) ∧
      if 10 ^ 15 ≤ |x.value| ∨ |x.value| < lower then n.IsScientific else n.IsPlain
  /-- Only the two zeros have the same text without being the same number. -/
  eq_iff : ∀ x y, x.isFinite = true → y.isFinite = true →
    (text x = text y ↔ x = y ∨ x.value = 0 ∧ y.value = 0)

theorem shortestTexts_write (hf : 0 < f.precision) :
    ShortestTexts f FloatStyle.canonical.write lowerBound.value where
  shortest x hfinite hne :=
    ⟨x.literal, write_eq_toText_literal hne hfinite, ofText?_write hne hfinite,
      roundsTo_value_literal hf hfinite hne,
      fun _ _ hq hdigits => hasDigits_literal hf hfinite hne hq hdigits, form_literal hne⟩
  eq_iff _ _ hx hy := write_eq_iff hf hx hy

/-- **The canonical texts of floating-point numbers** of both formats are the shortest decimals that
are rounded back to them. They have an exponent from `10 ^ 15` on and below the number of 64 bits
nearest to `10 ^ -5`. -/
theorem canonical_shortest : ∃ lower : Binary .double, RoundsTo (10 ^ (-5 : Int)) lower ∧
    ShortestTexts .double (fun x => (Scalar.float x).canonical) lower.value ∧
    ShortestTexts .single (fun x => (Scalar.float32 x).canonical) lower.value :=
  ⟨lowerBound, roundsTo_lowerBound, shortestTexts_write (by decide),
    shortestTexts_write (by decide)⟩

/-- The least positive number of 32 bits, in whose wide interval one digit is enough, and the one
after it, which has a text of its own. -/
theorem canonical_least_single :
    (ofPattern false 1 : Binary .single).isFinite = true ∧
      (ofPattern false 1 : Binary .single).value ≠ 0 ∧
      (Scalar.float32 (ofPattern false 1)).canonical = "1e-45".toList ∧
      (∃ n : NumberLiteral, (Scalar.float32 (ofPattern false 1)).canonical = n.toText ∧
        RoundsTo n.value (ofPattern false 1 : Binary .single)) ∧
      (Scalar.float32 (ofPattern false 1)).canonical ≠
        (Scalar.float32 (ofPattern false 2)).canonical := by
  obtain ⟨lower, -, -, hsingle⟩ := canonical_shortest
  have hfinite : (ofPattern false 1 : Binary .single).isFinite = true := by decide
  have hne : (ofPattern false 1 : Binary .single).value ≠ 0 := by
    rw [ne_eq, value_eq_zero_iff]
    decide
  obtain ⟨n, htext, -, hrounds, -, -⟩ := hsingle.shortest (ofPattern false 1) hfinite hne
  refine ⟨hfinite, hne, by decide +kernel, ⟨n, htext, hrounds⟩, ?_⟩
  rw [ne_eq, hsingle.eq_iff _ _ hfinite (by decide), not_or, not_and_or]
  exact ⟨by decide, .inl hne⟩

end Binary

end UriTemplate
