import UriTemplate.Proofs.Number.Exact
import UriTemplate.Proofs.Number.Integers
import UriTemplate.Proofs.Number.Literals

/-!
# Digits with an exponent and their numerals

Digits times a power of ten have two numerals: a positional one, filled up with zeros on either side
of the point, and one with a single digit before the point and an exponent. Both stand for the number
(`value_positionalLiteral`, `value_exponentialLiteral`). Without a zero at the end of the digits
nothing can be left out of either of them (`isPlain_positionalLiteral`,
`isScientific_exponentialLiteral`).
-/

namespace UriTemplate
set_option autoImplicit false

/-- Zeros behind a numeral are factors ten. -/
theorem numeral_append_zeros {n : Nat} (hn : 0 < n) (k : Nat) :
    numeral n ++ List.replicate k '0' = numeral (n * 10 ^ k) := by
  induction k with
  | zero => rw [List.replicate_zero, List.append_nil, pow_zero, mul_one]
  | succ k ih =>
    have hdigit := numeral_append_digit (n := n * 10 ^ k) (d := 0) (by positivity) (by omega)
    rw [List.replicate_succ', ← List.append_assoc, ih]
    show numeral (n * 10 ^ k) ++ [Nat.digitChar 0] = _
    rw [hdigit]
    congr 1
    ring

namespace NumberLiteral

/-- One digit other than zero before the point, no zero at the end behind it, and an exponent. -/
structure IsScientific (n : NumberLiteral) : Prop extends n.WellFormed where
  oneDigit : ∃ d, d ≠ '0' ∧ n.whole = [d]
  noTrailingZero : ∀ f ∈ n.fraction, f.getLast? ≠ some '0'
  integerExponent : ∃ k, exponentText n.exponent = 'e' :: integerNumeral k

/-- The numeral with this exponent. -/
def withExponent (n : NumberLiteral) (k : Int) : NumberLiteral :=
  { n with exponent := some (k < 0, numeral k.natAbs) }

section Exponent

variable {n : NumberLiteral} (k : Int)

theorem exponentText_withExponent :
    exponentText (n.withExponent k).exponent = 'e' :: integerNumeral k := by
  rw [integerNumeral_eq]
  show 'e' :: (minusSign (k < 0) ++ numeral k.natAbs) = _
  rw [minusSign]
  simp only [decide_eq_true_eq]

theorem toText_withExponent (h : n.exponent = none) :
    (n.withExponent k).toText = n.toText ++ 'e' :: integerNumeral k := by
  have hnone : exponentText n.exponent = [] := by
    rw [h]
    rfl
  unfold toText
  rw [exponentText_withExponent, hnone]
  simp [withExponent]

theorem exponentValue_withExponent : (n.withExponent k).exponentValue = k := by
  show (if decide (k < 0) then -Int.ofNat (digitsValue (numeral k.natAbs))
    else Int.ofNat (digitsValue (numeral k.natAbs))) = k
  rw [digitsValue_numeral]
  split
  · rename_i hneg
    have hneg := of_decide_eq_true hneg
    show -(k.natAbs : Int) = k
    omega
  · rename_i hnonneg
    have hnonneg := of_decide_eq_false (Bool.eq_false_of_not_eq_true hnonneg)
    show (k.natAbs : Int) = k
    omega

theorem value_withExponent (h : n.exponent = none) :
    (n.withExponent k).value = n.value * 10 ^ k := by
  have hnone : n.exponentValue = 0 := by
    unfold exponentValue
    rw [h]
  have hten : (10 : Rat) ≠ 0 := by norm_num
  have hpower : (10 : Rat) ^ (k - ((n.fraction.getD []).length : Int)) =
      10 ^ (0 - ((n.fraction.getD []).length : Int)) * 10 ^ k := by
    rw [← zpow_add₀ hten]
    congr 1
    omega
  unfold value
  rw [exponentValue_withExponent, hnone, mul_assoc _ _ ((10 : Rat) ^ k), ← hpower]
  rfl

theorem wellFormed_withExponent (h : n.WellFormed) : (n.withExponent k).WellFormed where
  whole := h.whole
  fraction := h.fraction
  exponent e he := by
    cases he
    exact ⟨numeral_ne_nil _, fun _ => isDigit_of_mem_numeral⟩

end Exponent

end NumberLiteral

namespace Scientific

variable (negative : Bool) {s : Scientific}

/-- The numeral without an exponent. -/
def positionalLiteral (s : Scientific) : NumberLiteral :=
  if 0 ≤ s.exponent then .ofScaled negative (s.digits * 10 ^ s.exponent.toNat) 0
  else .ofScaled negative s.digits (-s.exponent).toNat

/-- The numeral with one digit before the point. -/
def exponentialLiteral (s : Scientific) : NumberLiteral :=
  (NumberLiteral.ofScaled negative s.digits ((numeral s.digits).length - 1)).withExponent
    s.leadExponent

theorem toText_positionalLiteral (hpos : 0 < s.digits) :
    (s.positionalLiteral negative).toText = NumberLiteral.minusSign negative ++ s.positional := by
  unfold positionalLiteral positional
  split
  · rw [NumberLiteral.toText_ofScaled, numeral_append_zeros hpos, placePoint, if_pos rfl]
  · rw [NumberLiteral.toText_ofScaled]

theorem toText_exponentialLiteral (s : Scientific) : (s.exponentialLiteral negative).toText =
    NumberLiteral.minusSign negative ++ s.exponential false := by
  rw [exponentialLiteral, NumberLiteral.toText_withExponent _ rfl, NumberLiteral.toText_ofScaled,
    List.append_assoc, exponential, Bool.false_and, if_neg Bool.false_ne_true, List.append_assoc]
  rfl

theorem value_positionalLiteral (s : Scientific) :
    (s.positionalLiteral negative).value = (if negative then -1 else 1) * s.value := by
  have hten : (10 : Rat) ≠ 0 := by norm_num
  have hpower := zpow_mul_pow_toNat hten s.exponent
  unfold positionalLiteral value
  split
  · rename_i hnonneg
    have hzero : (-s.exponent).toNat = 0 := by omega
    rw [hzero, pow_zero, mul_one] at hpower
    rw [NumberLiteral.value_ofScaled, hpower]
    push_cast
    ring
  · rename_i hneg
    have hzero : s.exponent.toNat = 0 := by omega
    rw [hzero, pow_zero] at hpower
    rw [NumberLiteral.value_ofScaled, mul_div_assoc, div_eq_mul_one_div (s.digits : Rat),
      eq_one_div_of_mul_eq_one_left hpower]

theorem value_exponentialLiteral (s : Scientific) :
    (s.exponentialLiteral negative).value = (if negative then -1 else 1) * s.value := by
  have hten : (10 : Rat) ≠ 0 := by norm_num
  have hlength := List.length_pos_iff.2 (numeral_ne_nil s.digits)
  have hlead : s.leadExponent = s.exponent + ((numeral s.digits).length - 1 : Nat) := by
    rw [leadExponent]
    omega
  have hpower : (10 : Rat) ^ ((numeral s.digits).length - 1) ≠ 0 := by positivity
  rw [exponentialLiteral, NumberLiteral.value_withExponent _ rfl, NumberLiteral.value_ofScaled,
    hlead, zpow_add₀ hten, zpow_natCast, mul_comm ((10 : Rat) ^ s.exponent), ← mul_assoc,
    div_mul_cancel₀ _ hpower, mul_assoc]
  rfl

theorem isPlain_positionalLiteral (hpos : 0 < s.digits) (hdigits : s.digits % 10 ≠ 0) :
    (s.positionalLiteral negative).IsPlain := by
  unfold positionalLiteral
  split
  · exact NumberLiteral.isPlain_ofScaled _ _ _ (.inl rfl) fun _ => by positivity
  · exact NumberLiteral.isPlain_ofScaled _ _ _ (.inr hdigits) fun _ => hpos

theorem isScientific_exponentialLiteral (hpos : 0 < s.digits) (hdigits : s.digits % 10 ≠ 0) :
    (s.exponentialLiteral negative).IsScientific := by
  have hplain := NumberLiteral.isPlain_ofScaled negative s.digits ((numeral s.digits).length - 1)
    (.inr hdigits) fun _ => hpos
  refine ⟨NumberLiteral.wellFormed_withExponent _ hplain.toWellFormed, ?_, hplain.noTrailingZero,
    s.leadExponent, NumberLiteral.exponentText_withExponent _⟩
  obtain ⟨d, digits, hnumeral⟩ := List.exists_cons_of_ne_nil (numeral_ne_nil s.digits)
  refine ⟨d, fun hzero => head?_numeral_ne_zero hpos (by rw [hnumeral, hzero]; rfl), ?_⟩
  have hlength : (numeral s.digits).length - 1 + 1 = (numeral s.digits).length :=
    Nat.sub_add_cancel (List.length_pos_iff.2 (numeral_ne_nil s.digits))
  show (padZeros ((numeral s.digits).length - 1 + 1) (numeral s.digits)).take
    ((padZeros ((numeral s.digits).length - 1 + 1) (numeral s.digits)).length -
      ((numeral s.digits).length - 1)) = [d]
  rw [hlength, padZeros_of_le (le_refl _), Nat.sub_sub_self (by omega), hnumeral]
  rfl

end Scientific

end UriTemplate
