import UriTemplate.Proofs.Number.Floats

/-!
# Numbers of both formats with one decimal

Numbers of 32 and of 64 bits can have the same shortest decimal and yet be different numbers, both
close to the decimal. Whether the text has an exponent is decided by the number and not by the
decimal, so it matters on which side of a bound the number lies. Where the decimal is no bound itself,
the number lies on the side of its decimal (`lt_iff_of_gap`), and numbers of both formats have the
same text. Where it is one, the number of 32 bits is less than the bound and the one of 64 bits is not
(`canonical_eq_iff_of_decimal_eq`).
-/

namespace UriTemplate
set_option autoImplicit false

/-- A bound in the gap behind the number `z`, whose shortest decimal is `t`. -/
structure BoundBehind (f : Format) (z : Dyadic) (t bound : Rat) : Prop where
  normalized : f.IsNormalized z
  pos : 0 < z.significand
  decimal : (z.shortest f .upward).value = t
  le : z.value ≤ bound
  le_next : bound ≤ Format.next z

namespace Binary

variable {f : Format} {x : Binary f} {y : Binary .double} {z : Dyadic} {t bound : Rat}

theorem nearest_shortest (hf : 0 < f.precision) (h : f.IsNormalized z) (hpos : 0 < z.significand) :
    f.Nearest (z.shortest f .upward).value z :=
  Format.nearest_of_holds (isShortest_around f .upward hpos).holds h hf hpos

theorem nearest_decimal (hf : 0 < f.precision) (hne : x.value ≠ 0) :
    f.Nearest x.decimal.value x.magnitude :=
  nearest_shortest hf (isNormalized_magnitude hf x) (significand_pos hne)

theorem nearest_of_boundBehind (h : BoundBehind f z t bound) (hf : 0 < f.precision) :
    f.Nearest t z := h.decimal ▸ nearest_shortest hf h.normalized h.pos

/-- Rounding keeps the order, so only a number with this decimal can be on the other side. -/
theorem lt_iff_of_gap (h : BoundBehind f z t bound) (hf : 0 < f.precision) (hne : x.value ≠ 0)
    (hdecimal : x.decimal.value ≠ t) : x.magnitude.value < bound ↔ x.decimal.value < t := by
  have hnormalized := isNormalized_magnitude hf x
  have hnearest := nearest_decimal hf hne
  have hvalue : x.magnitude.value ≠ z.value := by
    intro heq
    have hz : x.magnitude = z := hnormalized.eq_of_value_eq h.normalized hf heq
    apply hdecimal
    rw [decimal, hz, h.decimal]
  constructor
  · intro hlt
    by_contra hge
    have hgt : t < x.decimal.value := lt_of_le_of_ne (not_lt.1 hge) hdecimal.symm
    have hle := (nearest_of_boundBehind h hf).value_le hnearest h.normalized hnormalized hgt
    have hgap := h.normalized.next_le hf hnormalized.represents (lt_of_le_of_ne hle hvalue.symm)
    exact absurd hlt (not_lt.2 (h.le_next.trans hgap))
  · intro hlt
    have hle := hnearest.value_le (nearest_of_boundBehind h hf) hnormalized h.normalized hlt
    exact (lt_of_le_of_ne hle hvalue).trans_le h.le

theorem magnitude_eq_of_decimal (h : BoundBehind f z t bound) (hf : 0 < f.precision)
    (hne : x.value ≠ 0) (hdecimal : x.decimal.value = t) : x.magnitude = z :=
  (hdecimal ▸ nearest_decimal hf hne).eq (nearest_of_boundBehind h hf)
    (isNormalized_magnitude hf x) h.normalized hf

/-! ## The bounds in both formats -/

theorem boundBehind_of_shortest {k : Int} (h : f.IsNormalized z) (hpos : 0 < z.significand)
    (hshortest : z.shortest f .upward = ⟨1, k⟩) (hle : z.value ≤ bound)
    (hnext : bound ≤ Format.next z) : BoundBehind f z (10 ^ k) bound := by
  refine ⟨h, hpos, ?_, hle, hnext⟩
  rw [hshortest, Scientific.value, Nat.cast_one, one_mul]

theorem single_upper : BoundBehind .single ⟨14901161, 26⟩ (10 ^ (15 : Int)) (10 ^ 15) :=
  boundBehind_of_shortest ⟨by decide, by decide, by decide⟩ (by decide) (by decide +kernel)
    (by norm_num [Dyadic.value]) (by norm_num [Format.next])

theorem double_upper :
    BoundBehind .double ⟨8000000000000000, -3⟩ (10 ^ (15 : Int)) (10 ^ 15) :=
  boundBehind_of_shortest ⟨by decide, by decide, by decide⟩ (by decide) (by decide +kernel)
    (by norm_num [Dyadic.value]) (by norm_num [Format.next])

theorem single_lower :
    BoundBehind .single ⟨10995116, -40⟩ (10 ^ (-5 : Int)) lowerBound.value :=
  boundBehind_of_shortest ⟨by decide, by decide, by decide⟩ (by decide) (by decide +kernel)
    (by norm_num [Dyadic.value, value_lowerBound]) (by norm_num [Format.next, value_lowerBound])

theorem double_lower :
    BoundBehind .double ⟨5902958103587057, -69⟩ (10 ^ (-5 : Int)) lowerBound.value :=
  boundBehind_of_shortest ⟨by decide, by decide, by decide⟩ (by decide) (by decide +kernel)
    (by norm_num [Dyadic.value, value_lowerBound]) (by norm_num [Format.next, value_lowerBound])

/-! ## The forms of texts -/

/-- Between the decimals of the bounds the text has no exponent. -/
theorem isPositional_iff_decimal {zUpper zLower : Dyadic} (hf : 0 < f.precision)
    (hupper : BoundBehind f zUpper (10 ^ (15 : Int)) (10 ^ 15))
    (hlower : BoundBehind f zLower (10 ^ (-5 : Int)) lowerBound.value) (hne : x.value ≠ 0)
    (hdecimal : x.decimal.value ≠ 10 ^ (15 : Int) ∧ x.decimal.value ≠ 10 ^ (-5 : Int)) :
    FloatStyle.canonical.isPositional x.magnitude x.decimal = true ↔
      x.decimal.value < 10 ^ (15 : Int) ∧ ¬x.decimal.value < 10 ^ (-5 : Int) := by
  rw [isPositional_canonical_iff, ← not_lt (a := x.magnitude.value),
    lt_iff_of_gap hupper hf hne hdecimal.1, lt_iff_of_gap hlower hf hne hdecimal.2]

theorem exponent_literal (x : Binary f) : x.literal.exponent = none ↔
    FloatStyle.canonical.isPositional x.magnitude x.decimal = true := by
  unfold literal Scientific.positionalLiteral
  split
  · rename_i hplain
    rw [iff_true_right hplain]
    split <;> rfl
  · rename_i hexponent
    rw [iff_false_right hexponent]
    exact Option.some_ne_none _

/-- With one decimal and one sign only the forms can differ. -/
theorem write_eq_iff_isPositional {g : Format} {y : Binary g} (hx : x.isFinite = true)
    (hy : y.isFinite = true) (hxne : x.value ≠ 0) (hyne : y.value ≠ 0)
    (hsign : x.isNegative = y.isNegative) (hdecimal : x.decimal = y.decimal) :
    FloatStyle.canonical.write x = FloatStyle.canonical.write y ↔
      (FloatStyle.canonical.isPositional x.magnitude x.decimal = true ↔
        FloatStyle.canonical.isPositional y.magnitude y.decimal = true) := by
  constructor
  · intro h
    have hread := ofText?_write hxne hx
    rw [h, ofText?_write hyne hy, Option.some.injEq] at hread
    rw [← exponent_literal x, ← exponent_literal y, hread]
  · intro h
    have hliteral : x.literal = y.literal := by
      rw [hdecimal] at h
      unfold literal
      rw [hsign, hdecimal]
      exact if_congr h rfl rfl
    rw [write_eq_toText_literal hxne hx, write_eq_toText_literal hyne hy, hliteral]

/-! ## Zero -/

theorem magnitude_of_value_eq_zero (hf : 0 < f.precision) (hzero : x.value = 0) :
    x.magnitude = ⟨0, f.minExponent⟩ := by
  have hnormalized := isNormalized_magnitude hf x
  have hsignificand := value_eq_zero_iff.1 hzero
  have hexponent : x.magnitude.exponent = f.minExponent := by
    by_contra hne
    have hfull := hnormalized.full (lt_of_le_of_ne hnormalized.le (Ne.symm hne))
    have hpos := twoPow_pos (f.precision - 1)
    omega
  rw [← hsignificand, ← hexponent]

theorem digits_decimal_eq_zero_iff {x : Binary f} (hf : 0 < f.precision)
    (hshortest : Dyadic.shortest f .upward ⟨0, f.minExponent⟩ = ⟨0, 1⟩) :
    x.decimal.digits = 0 ↔ x.value = 0 := by
  constructor
  · intro hdigits
    by_contra hne
    exact (digits_decimal_pos hne).ne' hdigits
  · intro hzero
    rw [decimal, magnitude_of_value_eq_zero hf hzero, hshortest]

/-! ## At the bounds -/

theorem isPositional_iff_of_boundBehind (h : BoundBehind f z t bound) (hf : 0 < f.precision)
    (hne : x.value ≠ 0) (hdecimal : x.decimal.value = t) :
    FloatStyle.canonical.isPositional x.magnitude x.decimal = true ↔
      z.value < 10 ^ 15 ∧ lowerBound.value ≤ z.value := by
  rw [isPositional_canonical_iff, magnitude_eq_of_decimal h hf hne hdecimal]

section Bounds

variable {x : Binary .single} {y : Binary .double} (hxne : x.value ≠ 0) (hyne : y.value ≠ 0)
  (hdecimal : x.decimal = y.decimal)
include hxne hyne hdecimal

/-- The number of 32 bits is less than `10 ^ 15`, and the one of 64 bits is `10 ^ 15` itself. -/
theorem forms_differ_at_upper (hupper : x.decimal.value = 10 ^ (15 : Int)) :
    ¬(FloatStyle.canonical.isPositional x.magnitude x.decimal = true ↔
      FloatStyle.canonical.isPositional y.magnitude y.decimal = true) := by
  rw [isPositional_iff_of_boundBehind single_upper (by decide) hxne hupper,
    isPositional_iff_of_boundBehind double_upper (by decide) hyne (hdecimal ▸ hupper),
    value_lowerBound]
  norm_num [Dyadic.value]

/-- The number of 32 bits is less than the lower bound, and the one of 64 bits is the bound itself. -/
theorem forms_differ_at_lower (hlower : x.decimal.value = 10 ^ (-5 : Int)) :
    ¬(FloatStyle.canonical.isPositional x.magnitude x.decimal = true ↔
      FloatStyle.canonical.isPositional y.magnitude y.decimal = true) := by
  rw [isPositional_iff_of_boundBehind single_lower (by decide) hxne hlower,
    isPositional_iff_of_boundBehind double_lower (by decide) hyne (hdecimal ▸ hlower),
    value_lowerBound]
  norm_num [Dyadic.value]

end Bounds

/-! ## Main statement -/

/-- **Numbers of both formats with one decimal** have the same text, except for the decimals
`10 ^ 15` and `10 ^ -5`. -/
theorem canonical_eq_iff_of_decimal_eq (x : Binary .single) (y : Binary .double)
    (hx : x.isFinite = true) (hy : y.isFinite = true) (hsign : x.isNegative = y.isNegative)
    (hdecimal : x.decimal = y.decimal) :
    (Scalar.float32 x).canonical = (Scalar.float y).canonical ↔
      x.decimal.value ≠ 10 ^ (15 : Int) ∧ x.decimal.value ≠ 10 ^ (-5 : Int) := by
  have hsingle : 0 < Format.single.precision := by decide
  have hdouble : 0 < Format.double.precision := by decide
  have hzero : x.value = 0 ↔ y.value = 0 := by
    rw [← digits_decimal_eq_zero_iff hsingle (by decide +kernel), hdecimal,
      digits_decimal_eq_zero_iff hdouble (by decide +kernel)]
  show FloatStyle.canonical.write x = FloatStyle.canonical.write y ↔ _
  by_cases hxzero : x.value = 0
  · have hdigits := (digits_decimal_eq_zero_iff hsingle (by decide +kernel)).2 hxzero
    have hvalue : x.decimal.value = 0 := by
      rw [Scientific.value, hdigits, Nat.cast_zero, zero_mul]
    rw [write_of_value_eq_zero hx hxzero, write_of_value_eq_zero hy (hzero.1 hxzero), hvalue]
    norm_num
  · have hyne : y.value ≠ 0 := fun h => hxzero (hzero.2 h)
    rw [write_eq_iff_isPositional hx hy hxzero hyne hsign hdecimal]
    constructor
    · intro h
      exact ⟨fun hupper => forms_differ_at_upper hxzero hyne hdecimal hupper h,
        fun hlower => forms_differ_at_lower hxzero hyne hdecimal hlower h⟩
    · intro h
      rw [isPositional_iff_decimal hsingle single_upper single_lower hxzero h,
        isPositional_iff_decimal hdouble double_upper double_lower hyne (hdecimal ▸ h), hdecimal]

/-- Just behind the upper bound: both numbers have the decimal `1.00000005e15`, but their values
differ. -/
theorem canonical_behind_upper :
    (ofPattern false 0x58635faa : Binary .single).decimal =
        (ofPattern false 0x430c6bf53e0b8400 : Binary .double).decimal ∧
      (Scalar.float32 (ofPattern false 0x58635faa)).canonical =
        (Scalar.float (ofPattern false 0x430c6bf53e0b8400)).canonical := by
  have hdecimal : (ofPattern false 0x58635faa : Binary .single).decimal =
      (ofPattern false 0x430c6bf53e0b8400 : Binary .double).decimal := by decide +kernel
  refine ⟨hdecimal, (canonical_eq_iff_of_decimal_eq _ _ (by decide) (by decide) (by decide)
    hdecimal).2 ?_⟩
  have hshortest : (ofPattern false 0x58635faa : Binary .single).decimal = ⟨100000005, 7⟩ := by
    decide +kernel
  rw [hshortest, Scientific.value]
  norm_num

/-- The numbers of both formats nearest to `10 ^ -5` have this decimal, and the text of the one of
32 bits alone has an exponent. -/
theorem canonical_differs_at_lower :
    (ofPattern false 0x3727c5ac : Binary .single).isFinite = true ∧
      lowerBound.isFinite = true ∧
      (ofPattern false 0x3727c5ac : Binary .single).isNegative = lowerBound.isNegative ∧
      (ofPattern false 0x3727c5ac : Binary .single).decimal = lowerBound.decimal ∧
      (Scalar.float32 (ofPattern false 0x3727c5ac)).canonical = "1e-5".toList ∧
      (Scalar.float lowerBound).canonical = "0.00001".toList := by
  decide +kernel

end Binary

end UriTemplate
