import Mathlib.Tactic.FieldSimp
import UriTemplate.Scalar
import UriTemplate.Proofs.Number.Literals

/-!
# Decimal numbers and their texts

Dropping zeros from the end of the fraction keeps the number (`dropZeros_value`) and stops where
there is no fraction left or its last digit is not zero (`dropZeros_done`). A number has one form like
that only (`eq_of_noTrailingZeros`), so the canonical text, which shows all digits of it, is the same
exactly for equal numbers.
-/

namespace UriTemplate
set_option autoImplicit false

namespace Decimal

variable {d d' : Decimal}

/-! ## Zeros at the end of a fraction -/

/-- The invariant of the loop: mantissa and scale go down together. -/
theorem dropZeros_value (mantissa scale : Nat) :
    mantissa * tenPow (dropZeros mantissa scale).2 =
      (dropZeros mantissa scale).1 * tenPow scale := by
  induction scale generalizing mantissa with
  | zero => rfl
  | succ scale ih =>
    unfold dropZeros
    split
    · rename_i hzero
      have hdiv : mantissa = 10 * (mantissa / 10) := by omega
      calc mantissa * tenPow (dropZeros (mantissa / 10) scale).2
        _ = 10 * (mantissa / 10 * tenPow (dropZeros (mantissa / 10) scale).2) := by
          rw [← Nat.mul_assoc, ← hdiv]
        _ = (dropZeros (mantissa / 10) scale).1 * tenPow (scale + 1) := by
          rw [ih, tenPow_succ, Nat.mul_left_comm]
    · rfl

theorem dropZeros_done (mantissa scale : Nat) :
    (dropZeros mantissa scale).2 = 0 ∨ (dropZeros mantissa scale).1 % 10 ≠ 0 := by
  induction scale generalizing mantissa with
  | zero => exact .inl rfl
  | succ scale ih =>
    unfold dropZeros
    split
    · exact ih (mantissa / 10)
    · rename_i hne
      exact .inr hne

theorem tenPow_pos (n : Nat) : 0 < tenPow n := Nat.pow_pos (by omega)

theorem tenPow_add (m n : Nat) : tenPow (m + n) = tenPow m * tenPow n := Nat.pow_add 10 m n

/-- With a longer fraction than another form of the same number, the last digit would be zero. -/
theorem scale_le_of_noTrailingZeros {m s m' s' : Nat} (h : s = 0 ∨ m % 10 ≠ 0)
    (heq : m * tenPow s' = m' * tenPow s) : s ≤ s' := by
  by_contra hlt
  have hsplit : tenPow s = 10 * tenPow (s - s' - 1) * tenPow s' := by
    rw [← tenPow_succ, ← tenPow_add]
    congr 1
    omega
  have hm : m = m' * (10 * tenPow (s - s' - 1)) := by
    apply Nat.eq_of_mul_eq_mul_right (tenPow_pos s')
    rw [heq, hsplit, ← Nat.mul_assoc]
  rcases h with rfl | hne
  · omega
  · apply hne
    rw [hm, Nat.mul_left_comm, Nat.mul_mod_right]

theorem eq_of_noTrailingZeros {m s m' s' : Nat} (h : s = 0 ∨ m % 10 ≠ 0)
    (h' : s' = 0 ∨ m' % 10 ≠ 0) (heq : m * tenPow s' = m' * tenPow s) : m = m' ∧ s = s' := by
  have hs : s = s' :=
    Nat.le_antisymm (scale_le_of_noTrailingZeros h heq) (scale_le_of_noTrailingZeros h' heq.symm)
  subst hs
  exact ⟨Nat.eq_of_mul_eq_mul_right (tenPow_pos s) heq, rfl⟩

/-! ## Numbers -/

theorem ext (hmantissa : d.mantissa = d'.mantissa) (hscale : d.scale = d'.scale) : d = d' := by
  cases d
  cases d'
  cases hmantissa
  cases hscale
  rfl

/-- The exact number. -/
def value (d : Decimal) : Rat := d.mantissa / 10 ^ d.scale

theorem value_eq_iff :
    d.value = d'.value ↔ d.mantissa * 10 ^ d'.scale = d'.mantissa * 10 ^ d.scale := by
  have hpos : (10 : Rat) ^ d.scale ≠ 0 := by positivity
  have hpos' : (10 : Rat) ^ d'.scale ≠ 0 := by positivity
  unfold value
  rw [div_eq_div_iff hpos hpos']
  exact_mod_cast Iff.rfl

theorem natAbs_mantissa_normalize (d : Decimal) :
    d.normalize.mantissa.natAbs = (dropZeros d.mantissa.natAbs d.scale).1 := by
  have hvalue := dropZeros_value d.mantissa.natAbs d.scale
  show (d.mantissa.sign * _).natAbs = _
  rw [Int.natAbs_mul, Int.natAbs_natCast, Int.natAbs_sign]
  split
  · rename_i hzero
    rw [hzero, Int.natAbs_zero, Nat.zero_mul] at hvalue
    have hmantissa := (Nat.mul_eq_zero.1 hvalue.symm).resolve_right (tenPow_pos d.scale).ne'
    rw [hzero, Int.natAbs_zero, hmantissa, Nat.mul_zero]
  · rw [Nat.one_mul]

theorem cast_tenPow (n : Nat) : (tenPow n : Int) = 10 ^ n := Int.natCast_pow 10 n

theorem value_normalize (d : Decimal) : d.normalize.value = d.value := by
  have hvalue : (d.mantissa.natAbs : Int) * 10 ^ d.normalize.scale =
      (dropZeros d.mantissa.natAbs d.scale).1 * 10 ^ d.scale := by
    rw [← cast_tenPow, ← cast_tenPow]
    exact_mod_cast dropZeros_value d.mantissa.natAbs d.scale
  rw [value_eq_iff]
  calc d.mantissa.sign * (dropZeros d.mantissa.natAbs d.scale).1 * 10 ^ d.scale
    _ = d.mantissa.sign * (d.mantissa.natAbs * 10 ^ d.normalize.scale) := by
      rw [hvalue, Int.mul_assoc]
    _ = d.mantissa * 10 ^ d.normalize.scale := by
      rw [← Int.mul_assoc, Int.sign_mul_natAbs]

theorem noTrailingZeros_normalize (d : Decimal) :
    d.normalize.scale = 0 ∨ d.normalize.mantissa.natAbs % 10 ≠ 0 := by
  rw [natAbs_mantissa_normalize]
  exact dropZeros_done d.mantissa.natAbs d.scale

/-- **One form for each number.** -/
theorem normalize_eq_iff : d.normalize = d'.normalize ↔ d.value = d'.value := by
  constructor
  · intro h
    rw [← value_normalize d, h, value_normalize]
  · intro h
    rw [← value_normalize d, ← value_normalize d', value_eq_iff] at h
    have habs := congrArg Int.natAbs h
    rw [Int.natAbs_mul, Int.natAbs_mul, Int.natAbs_pow, Int.natAbs_pow] at habs
    obtain ⟨-, hscale⟩ := eq_of_noTrailingZeros (noTrailingZeros_normalize d)
      (noTrailingZeros_normalize d') habs
    rw [hscale] at h
    exact Decimal.ext (Int.eq_of_mul_eq_mul_right (by positivity) h) hscale

/-! ## Texts -/

/-- The numeral with all digits of the scale. -/
def literal (d : Decimal) : NumberLiteral :=
  .ofScaled (d.mantissa < 0) d.mantissa.natAbs d.scale

theorem toText_literal (d : Decimal) : d.literal.toText = d.toText := by
  rw [literal, NumberLiteral.toText_ofScaled, NumberLiteral.minusSign, toText]
  simp only [decide_eq_true_eq]

theorem value_literal (d : Decimal) : d.literal.value = d.value := by
  have hmantissa : (if d.mantissa < 0 then -1 else 1) * (d.mantissa.natAbs : Int) = d.mantissa := by
    split <;> omega
  have hcast := congrArg (Int.cast : Int → Rat) hmantissa
  rw [literal, NumberLiteral.value_ofScaled, value, ← hcast]
  simp

theorem isPlain_literal_normalize (d : Decimal) : d.normalize.literal.IsPlain := by
  apply NumberLiteral.isPlain_ofScaled _ _ _ (noTrailingZeros_normalize d)
  intro hnegative
  have hlt : d.normalize.mantissa < 0 := by simpa using hnegative
  omega

theorem canonical_eq (d : Decimal) :
    (Scalar.decimal d).canonical = d.normalize.literal.toText := (toText_literal d.normalize).symm

theorem ofText?_canonical (d : Decimal) :
    NumberLiteral.ofText? (Scalar.decimal d).canonical = some d.normalize.literal := by
  rw [canonical_eq]
  exact NumberLiteral.ofText?_toText (isPlain_literal_normalize d).toWellFormed

/-- **The canonical text of a decimal** is a plain numeral that is read as exactly its number. So
numbers have the same text exactly if they are equal, with whatever scales they come. -/
theorem canonical_exact (d : Decimal) :
    (∃ n : NumberLiteral, n.IsPlain ∧ (Scalar.decimal d).canonical = n.toText ∧
      NumberLiteral.ofText? (Scalar.decimal d).canonical = some n ∧
      n.value = d.mantissa / 10 ^ d.scale) ∧
    (∀ c ∈ (Scalar.decimal d).canonical, c.isDigit = true ∨ c = '-' ∨ c = '.') ∧
    ∀ d' : Decimal, (Scalar.decimal d).canonical = (Scalar.decimal d').canonical ↔
      d.mantissa * 10 ^ d'.scale = d'.mantissa * 10 ^ d.scale := by
  refine ⟨⟨d.normalize.literal, isPlain_literal_normalize d, canonical_eq d, ofText?_canonical d,
    ?_⟩, fun c hc => ?_, fun d' => ?_⟩
  · rw [value_literal, value_normalize]
    rfl
  · rw [canonical_eq] at hc
    exact NumberLiteral.mem_toText_of_isPlain (isPlain_literal_normalize d) hc
  · rw [← value_eq_iff]
    constructor
    · intro h
      have hread := ofText?_canonical d
      rw [h, ofText?_canonical d', Option.some.injEq] at hread
      rw [← value_normalize d, ← value_literal, ← hread, value_literal, value_normalize]
    · intro h
      rw [canonical_eq, canonical_eq, normalize_eq_iff.2 h]

/-- A fraction that loses one of its 28 places and keeps its zeros in front, and zeros that belong
to the number. -/
example : (Scalar.decimal ⟨-10, 28, by decide, by decide⟩).canonical =
    "-0.000000000000000000000000001".toList ∧
    (Scalar.decimal ⟨420000, 2, by decide, by decide⟩).canonical = "4200".toList := by
  decide +kernel

end Decimal

end UriTemplate
