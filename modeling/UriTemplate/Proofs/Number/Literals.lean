import Mathlib.Algebra.Order.Field.Rat
import Mathlib.Tactic.Positivity
import UriTemplate.Proofs.Json.Numbers
import UriTemplate.Proofs.Text.FixedWidth

/-!
# Numerals and the numbers they stand for

A numeral has a sign, digits, digits behind a point, and an exponent; what it stands for is exact
(`NumberLiteral.value`). The parts of a text that is a numeral are found again by the reader
(`NumberLiteral.ofText?_toText`), so a text stands for one number at most. A plain numeral has no
exponent and nothing that could be left out: no zero at either end, no bare point and no sign of zero.
-/

namespace UriTemplate
set_option autoImplicit false

namespace NumberLiteral

variable {n : NumberLiteral}

/-- The exact number. -/
def value (n : NumberLiteral) : Rat :=
  (if n.negative then -1 else 1) * digitsValue (n.whole ++ n.fraction.getD []) *
    10 ^ (n.exponentValue - (n.fraction.getD []).length)

/-- The sign of a negative numeral or exponent. -/
def minusSign (negative : Bool) : Text := if negative then ['-'] else []

/-- The point and the digits behind it. -/
def fractionText (fraction : Option Text) : Text := fraction.elim [] ('.' :: ·)

/-- The exponent behind its letter. -/
def exponentText (exponent : Option (Bool × Text)) : Text :=
  exponent.elim [] fun e => 'e' :: (minusSign e.1 ++ e.2)

/-- The text with these parts. -/
def toText (n : NumberLiteral) : Text :=
  minusSign n.negative ++ (n.whole ++ (fractionText n.fraction ++ exponentText n.exponent))

/-- The parts of a text that is a numeral as a whole, with or without a sign in front. -/
def ofText? (text : Text) : Option NumberLiteral :=
  let (negative, digits) := JsonToken.readSign text
  match JsonToken.readLiteral? negative digits with
  | some (n, []) => some n
  | _ => none

/-- Digits stand where there must be some, and the first one is no needless zero. -/
structure WellFormed (n : NumberLiteral) : Prop where
  whole : IsNumeral n.whole
  fraction : ∀ f ∈ n.fraction, f ≠ [] ∧ ∀ c ∈ f, c.isDigit = true
  exponent : ∀ e ∈ n.exponent, e.2 ≠ [] ∧ ∀ c ∈ e.2, c.isDigit = true

/-- Without an exponent and without a character that could be left out. -/
structure IsPlain (n : NumberLiteral) : Prop extends n.WellFormed where
  noExponent : n.exponent = none
  noTrailingZero : ∀ f ∈ n.fraction, f.getLast? ≠ some '0'
  sign : n.negative = true → n.value < 0

/-! ## Reading -/

theorem stopsAt_exponentText (e : Option (Bool × Text)) :
    StopsAt Char.isDigit (exponentText e) := by
  cases e with
  | none => exact stopsAt_nil Char.isDigit
  | some e => exact stopsAt_cons.2 (by decide)

theorem stopsAt_fractionText (f : Option Text) (e : Option (Bool × Text)) :
    StopsAt Char.isDigit (fractionText f ++ exponentText e) := by
  cases f with
  | none => exact stopsAt_exponentText e
  | some f => exact stopsAt_cons.2 (by decide)

/-- What starts with a digit has no sign of its own. -/
theorem readSign_minusSign (negative : Bool) {s : Text}
    (h : ∃ c, s.head? = some c ∧ c.isDigit = true) :
    JsonToken.readSign (minusSign negative ++ s) = (negative, s) := by
  cases negative with
  | true => rfl
  | false =>
    obtain ⟨c, hc, hdigit⟩ := h
    obtain ⟨s, rfl⟩ := List.head?_eq_some_iff.1 hc
    show JsonToken.readSign (c :: s) = _
    unfold JsonToken.readSign
    split
    · rename_i heq
      cases heq
      exact absurd hdigit (by decide)
    · rename_i heq
      cases heq
      exact absurd hdigit (by decide)
    · rfl

theorem exists_head?_of_digits {digits : Text} (hne : digits ≠ [])
    (hdigits : ∀ c ∈ digits, c.isDigit = true) (rest : Text) :
    ∃ c, (digits ++ rest).head? = some c ∧ c.isDigit = true := by
  obtain ⟨c, digits, rfl⟩ := List.exists_cons_of_ne_nil hne
  exact ⟨c, rfl, hdigits c List.mem_cons_self⟩

theorem readExponent?_exponentText {e : Option (Bool × Text)}
    (h : ∀ x ∈ e, x.2 ≠ [] ∧ ∀ c ∈ x.2, c.isDigit = true) :
    JsonToken.readExponent? (exponentText e) = some (e, []) := by
  cases e with
  | none => rfl
  | some e =>
    obtain ⟨negative, digits⟩ := e
    obtain ⟨hne, hdigits⟩ := h _ rfl
    have hread := readDigits?_of_digits hne hdigits (stopsAt_nil Char.isDigit)
    rw [List.append_nil] at hread
    show JsonToken.readExponent? ('e' :: (minusSign negative ++ digits)) = _
    have hhead := exists_head?_of_digits hne hdigits []
    rw [List.append_nil] at hhead
    simp [JsonToken.readExponent?, readSign_minusSign negative hhead, hread]

theorem readFraction?_fractionText {f : Option Text} (e : Option (Bool × Text))
    (h : ∀ x ∈ f, x ≠ [] ∧ ∀ c ∈ x, c.isDigit = true) :
    JsonToken.readFraction? (fractionText f ++ exponentText e) = some (f, exponentText e) := by
  cases f with
  | none =>
    cases e with
    | none => rfl
    | some e => rfl
  | some f =>
    obtain ⟨hne, hdigits⟩ := h f rfl
    have hread := readDigits?_of_digits hne hdigits (stopsAt_exponentText e)
    show JsonToken.readFraction? ('.' :: (f ++ exponentText e)) = _
    simp [JsonToken.readFraction?, hread]

theorem readLiteral?_parts (h : n.WellFormed) :
    JsonToken.readLiteral? n.negative
      (n.whole ++ (fractionText n.fraction ++ exponentText n.exponent)) = some (n, []) := by
  have hwhole := readWhole?_numeral (digitsValue n.whole)
    (stopsAt_fractionText n.fraction n.exponent)
  rw [h.whole.numeral_digitsValue] at hwhole
  unfold JsonToken.readLiteral?
  simp [hwhole, readFraction?_fractionText n.exponent h.fraction,
    readExponent?_exponentText h.exponent]

/-- **The parts of a numeral** are found in its text. -/
theorem ofText?_toText (h : n.WellFormed) : ofText? n.toText = some n := by
  have hsign : JsonToken.readSign n.toText =
      (n.negative, n.whole ++ (fractionText n.fraction ++ exponentText n.exponent)) :=
    readSign_minusSign n.negative (exists_head?_of_digits h.whole.ne_nil h.whole.isDigit _)
  unfold ofText?
  rw [hsign]
  show (match JsonToken.readLiteral? n.negative _ with
    | some (n, []) => some n
    | _ => none) = some n
  rw [readLiteral?_parts h]

/-! ## Values -/

/-- The digits of a numeral without an exponent are those of its value, moved by the fraction. -/
theorem value_of_noExponent (h : n.exponent = none) : n.value =
    (if n.negative then -1 else 1) * digitsValue (n.whole ++ n.fraction.getD []) /
      10 ^ (n.fraction.getD []).length := by
  have hexponent : n.exponentValue = 0 := by
    unfold exponentValue
    rw [h]
  unfold value
  rw [hexponent, Int.zero_sub, Rat.zpow_neg, Rat.zpow_natCast, ← Rat.div_def]

/-! ## Plain numerals -/

theorem mem_toText_of_isPlain (h : n.IsPlain) {c : Char} (hc : c ∈ n.toText) :
    c.isDigit = true ∨ c = '-' ∨ c = '.' := by
  unfold toText at hc
  rw [h.noExponent] at hc
  rcases List.mem_append.1 hc with hsign | hc
  · unfold minusSign at hsign
    split at hsign
    · exact .inr (.inl (List.mem_singleton.1 hsign))
    · cases hsign
  rcases List.mem_append.1 hc with hwhole | hc
  · exact .inl (h.whole.isDigit c hwhole)
  rcases List.mem_append.1 hc with hfraction | hexponent
  · cases hf : n.fraction with
    | none =>
      rw [hf] at hfraction
      cases hfraction
    | some f =>
      rw [hf] at hfraction
      rcases List.mem_cons.1 hfraction with rfl | hdigit
      · exact .inr (.inr rfl)
      · exact .inl ((h.fraction f hf).2 c hdigit)
  · cases hexponent

/-! ## Digits with a point among them -/

/-- The numeral with so many of its digits behind the point. -/
def ofScaled (negative : Bool) (digits scale : Nat) : NumberLiteral :=
  let padded := padZeros (scale + 1) (numeral digits)
  ⟨negative, padded.take (padded.length - scale),
    if scale = 0 then none else some (padded.drop (padded.length - scale)), none⟩

section Scaled

variable (negative : Bool) (digits scale : Nat)

theorem length_padded : (padZeros (scale + 1) (numeral digits)).length =
    max (scale + 1) (numeral digits).length := by
  rw [padZeros, List.length_append, List.length_replicate]
  omega

theorem fraction_ofScaled : (ofScaled negative digits scale).fraction.getD [] =
    (padZeros (scale + 1) (numeral digits)).drop
      ((padZeros (scale + 1) (numeral digits)).length - scale) := by
  unfold ofScaled
  by_cases hscale : scale = 0
  · subst hscale
    rw [Nat.sub_zero, List.drop_length]
    rfl
  · simp only [if_neg hscale, Option.getD_some]

theorem digits_ofScaled : (ofScaled negative digits scale).whole ++
    (ofScaled negative digits scale).fraction.getD [] = padZeros (scale + 1) (numeral digits) := by
  rw [fraction_ofScaled]
  exact List.take_append_drop _ _

theorem length_fraction_ofScaled :
    ((ofScaled negative digits scale).fraction.getD []).length = scale := by
  have hlength := length_padded digits scale
  rw [fraction_ofScaled, List.length_drop]
  omega

theorem toText_ofScaled : (ofScaled negative digits scale).toText =
    minusSign negative ++ placePoint (numeral digits) scale := by
  unfold toText
  congr 1
  by_cases hscale : scale = 0
  · subst hscale
    have hpadded : padZeros 1 (numeral digits) = numeral digits :=
      padZeros_of_le (List.length_pos_iff.2 (numeral_ne_nil digits))
    show (padZeros 1 (numeral digits)).take ((padZeros 1 (numeral digits)).length - 0) ++ _ = _
    rw [hpadded, Nat.sub_zero, List.take_length]
    exact List.append_nil _
  · simp [placePoint, ofScaled, hscale, fractionText, exponentText]

/-- **What is written** with a point is the digits over the power of ten. -/
theorem value_ofScaled : (ofScaled negative digits scale).value =
    (if negative then -1 else 1) * digits / 10 ^ scale := by
  rw [value_of_noExponent rfl, digits_ofScaled, length_fraction_ofScaled, digitsValue_padZeros,
    digitsValue_numeral]
  rfl

/-- Zeros are filled in for a first digit only, and digits that need none do not start with zero. -/
theorem isNumeral_whole_ofScaled : IsNumeral (ofScaled negative digits scale).whole := by
  have hlength := length_padded digits scale
  have hwhole : (ofScaled negative digits scale).whole =
      (padZeros (scale + 1) (numeral digits)).take
        ((padZeros (scale + 1) (numeral digits)).length - scale) := rfl
  have hne : (ofScaled negative digits scale).whole ≠ [] := by
    apply List.ne_nil_of_length_pos
    rw [hwhole, List.length_take]
    omega
  refine ⟨hne, fun c hc => ?_, fun hzero => ?_⟩
  · rw [hwhole] at hc
    exact isDigit_of_mem_padZeros c (List.mem_of_mem_take hc)
  · by_cases hshort : (numeral digits).length ≤ scale + 1
    · obtain ⟨rest, hrest⟩ := List.head?_eq_some_iff.1 hzero
      have hone : (ofScaled negative digits scale).whole.length = 1 := by
        rw [hwhole, List.length_take]
        omega
      rw [hrest, List.length_cons] at hone
      obtain rfl : rest = [] := List.eq_nil_of_length_eq_zero (by omega)
      exact hrest
    · rw [hwhole, padZeros_of_le (by omega), List.head?_take, if_neg (by omega)] at hzero
      have hdigits := (isNumeral_numeral digits).eq_zero hzero
      rw [hdigits, List.length_singleton] at hshort
      omega

theorem mem_fraction_ofScaled {f : Text} (h : f ∈ (ofScaled negative digits scale).fraction) :
    f ≠ [] ∧ (∀ c ∈ f, c.isDigit = true) ∧ f.getLast? = some (Nat.digitChar (digits % 10)) := by
  have hlength := length_padded digits scale
  have hgetD := fraction_ofScaled negative digits scale
  rw [Option.mem_def.1 h, Option.getD_some] at hgetD
  have hscale : scale ≠ 0 := by
    rintro rfl
    cases h
  refine ⟨?_, fun c hc => ?_, ?_⟩
  · apply List.ne_nil_of_length_pos
    rw [hgetD, List.length_drop]
    omega
  · rw [hgetD] at hc
    exact isDigit_of_mem_padZeros c (List.mem_of_mem_drop hc)
  · rw [hgetD, List.getLast?_drop, if_neg (by omega), padZeros,
      List.getLast?_append_of_ne_nil _ (numeral_ne_nil digits), getLast?_numeral]

theorem wellFormed_ofScaled : (ofScaled negative digits scale).WellFormed := by
  refine ⟨isNumeral_whole_ofScaled negative digits scale, fun f hf => ?_, fun e he => ?_⟩
  · obtain ⟨hne, hdigits, -⟩ := mem_fraction_ofScaled negative digits scale hf
    exact ⟨hne, hdigits⟩
  · cases he

/-- The last digit behind the point is the last one of all. -/
theorem isPlain_ofScaled (hdigits : scale = 0 ∨ digits % 10 ≠ 0)
    (hsign : negative = true → 0 < digits) : (ofScaled negative digits scale).IsPlain where
  toWellFormed := wellFormed_ofScaled negative digits scale
  noExponent := rfl
  noTrailingZero f hf hzero := by
    obtain ⟨-, -, hlast⟩ := mem_fraction_ofScaled negative digits scale hf
    rw [hlast, Option.some.injEq] at hzero
    have hdigit : digits % 10 = 0 := by
      have htoNat := congrArg Char.toNat hzero
      rw [Nat.toNat_digitChar_of_lt_ten (Nat.mod_lt _ (by omega))] at htoNat
      have h0 : '0'.toNat = 48 := rfl
      omega
    rcases hdigits with rfl | hne
    · cases hf
    · exact hne hdigit
  sign hnegative := by
    subst hnegative
    have hpos : (0 : Rat) < digits := by exact_mod_cast hsign rfl
    rw [value_ofScaled, if_pos rfl, neg_one_mul]
    exact div_neg_of_neg_of_pos (neg_neg_of_pos hpos) (by positivity)

end Scaled

end NumberLiteral

end UriTemplate
