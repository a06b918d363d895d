import UriTemplate.Number.Power
import UriTemplate.Proofs.Text.Numeral

/-!
# Numbers in fixed widths

Zeros in front of a numeral do not change what it writes. So numbers that are filled up to one width
are in the order of their texts, and what follows decides only between equal numbers. A layout gives
each of some numbers a width and the marks behind it: texts of one layout have one length
(`length_writeFields`), are in the order of the numbers (`writeFields_lt_iff`), and show all of them
(`writeFields_inj`).
-/

namespace UriTemplate
set_option autoImplicit false

/-! ## Words of digits -/

theorem digitsValue_cons (c : Char) (s : Text) :
    digitsValue (c :: s) = tenPow s.length * (c.toNat - '0'.toNat) + digitsValue s := by
  unfold digitsValue
  rw [Nat.ofDigitChars_cons, Nat.ofDigitChars_eq_ofDigitChars_zero, Nat.mul_zero, Nat.zero_add]
  rfl

theorem digitsValue_append (s t : Text) :
    digitsValue (s ++ t) = tenPow t.length * digitsValue s + digitsValue t := by
  unfold digitsValue
  rw [Nat.ofDigitChars_append, Nat.ofDigitChars_eq_ofDigitChars_zero]
  rfl

theorem toNat_of_isDigit {c : Char} (h : c.isDigit = true) :
    '0'.toNat ≤ c.toNat ∧ c.toNat ≤ '9'.toNat := by
  simpa [Char.isDigit, UInt32.le_iff_toNat_le] using h

theorem tenPow_succ (n : Nat) : tenPow (n + 1) = 10 * tenPow n := Nat.pow_succ'

theorem digitsValue_lt {s : Text} (h : ∀ c ∈ s, c.isDigit = true) :
    digitsValue s < tenPow s.length := by
  induction s with
  | nil => exact Nat.one_pos
  | cons c s ih =>
    obtain ⟨hc, hs⟩ := List.forall_mem_cons.1 h
    have hdigit : c.toNat - '0'.toNat ≤ 9 := by
      have hrange := toNat_of_isDigit hc
      have h9 : '9'.toNat = '0'.toNat + 9 := rfl
      omega
    have hmul := Nat.mul_le_mul_left (tenPow s.length) hdigit
    have hrest := ih hs
    rw [digitsValue_cons, List.length_cons, tenPow_succ]
    omega

/-- Behind texts of one length the next ones decide. -/
theorem append_lt_append_iff {α : Type} [LT α]
    {front front' back back' : List α} (h : front.length = front'.length) :
    front ++ back < front' ++ back' ↔ front < front' ∨ (front = front' ∧ back < back') := by
  induction front generalizing front' with
  | nil =>
    obtain rfl : front' = [] := List.eq_nil_of_length_eq_zero h.symm
    simp
  | cons a front ih =>
    cases front' with
    | nil => cases h
    | cons a' front' =>
      rw [List.cons_append, List.cons_append, List.cons_lt_cons_iff, List.cons_lt_cons_iff,
        ih (Nat.succ.inj h), List.cons.injEq, and_or_left, or_assoc, and_assoc]

/-- A greater digit outweighs all digits behind it. -/
theorem mul_add_lt_mul_add_iff {p x y r q : Nat} (hr : r < p) (hq : q < p) :
    p * x + r < p * y + q ↔ x < y ∨ (x = y ∧ r < q) := by
  rcases Nat.lt_trichotomy x y with h | rfl | h
  · have hmul : p * x + p ≤ p * y := Nat.mul_le_mul_left p h
    constructor
    · intro _
      exact .inl h
    · intro _
      omega
  · constructor
    · intro hlt
      exact .inr ⟨rfl, by omega⟩
    · rintro (hlt | ⟨-, hlt⟩) <;> omega
  · have hmul : p * y + p ≤ p * x := Nat.mul_le_mul_left p h
    constructor
    · intro hlt
      omega
    · rintro (hlt | ⟨heq, -⟩) <;> omega

/-- **Words of one length** are in the order of their values: the first digits that differ
decide. -/
theorem lt_iff_digitsValue_lt {s t : Text} (hlength : s.length = t.length)
    (hs : ∀ c ∈ s, c.isDigit = true) (ht : ∀ c ∈ t, c.isDigit = true) :
    s < t ↔ digitsValue s < digitsValue t := by
  induction s generalizing t with
  | nil =>
    obtain rfl : t = [] := List.eq_nil_of_length_eq_zero hlength.symm
    simp [digitsValue]
  | cons c s ih =>
    cases t with
    | nil => cases hlength
    | cons d t =>
      obtain ⟨hc, hs⟩ := List.forall_mem_cons.1 hs
      obtain ⟨hd, ht⟩ := List.forall_mem_cons.1 ht
      have hlength := Nat.succ.inj hlength
      have hvalue := digitsValue_lt hs
      rw [hlength] at hvalue
      have hless : c < d ↔ c.toNat - '0'.toNat < d.toNat - '0'.toNat := by
        have hc0 := toNat_of_isDigit hc
        have hd0 := toNat_of_isDigit hd
        rw [Char.lt_def, UInt32.lt_iff_toNat_lt]
        show c.toNat < d.toNat ↔ _
        omega
      have hequal : c = d ↔ c.toNat - '0'.toNat = d.toNat - '0'.toNat := by
        have hc0 := toNat_of_isDigit hc
        have hd0 := toNat_of_isDigit hd
        rw [← Char.toNat_inj]
        omega
      rw [List.cons_lt_cons_iff, ih hlength hs ht, digitsValue_cons, digitsValue_cons, hlength,
        mul_add_lt_mul_add_iff hvalue (digitsValue_lt ht), hless, hequal]

/-! ## Numerals with zeros in front -/

theorem digitsValue_replicate (k : Nat) : digitsValue (List.replicate k '0') = 0 := by
  induction k with
  | zero => rfl
  | succ k ih => rw [List.replicate_succ, digitsValue_cons, ih, Nat.sub_self, Nat.mul_zero]

theorem digitsValue_padZeros (width : Nat) (s : Text) :
    digitsValue (padZeros width s) = digitsValue s := by
  rw [padZeros, digitsValue_append, digitsValue_replicate, Nat.mul_zero, Nat.zero_add]

theorem padZeros_of_le {width : Nat} {s : Text} (h : width ≤ s.length) : padZeros width s = s := by
  rw [padZeros, Nat.sub_eq_zero_of_le h, List.replicate_zero, List.nil_append]

theorem isDigit_of_mem_padZeros {width n : Nat} :
    ∀ c ∈ padZeros width (numeral n), c.isDigit = true := by
  intro c hc
  rcases List.mem_append.1 hc with hzero | hnumeral
  · rw [List.eq_of_mem_replicate hzero]
    rfl
  · exact isDigit_of_mem_numeral hnumeral

theorem padZeros_numeral_inj {width m n : Nat} :
    padZeros width (numeral m) = padZeros width (numeral n) ↔ m = n := by
  constructor
  · intro h
    have hvalue := congrArg digitsValue h
    rwa [digitsValue_padZeros, digitsValue_padZeros, digitsValue_numeral, digitsValue_numeral]
      at hvalue
  · rintro rfl
    rfl

theorem length_padZeros_numeral {width n : Nat} (hwidth : 0 < width) (h : n < tenPow width) :
    (padZeros width (numeral n)).length = width := by
  have hle : (numeral n).length ≤ width := (Nat.length_toDigits_le_iff (by omega) hwidth).2 h
  rw [padZeros, List.length_append, List.length_replicate]
  omega

/-! ## Layouts -/

/-- Numbers one behind the other, each in the width and with the marks behind it that the layout
gives it. -/
def writeFields : List (Nat × Text) → List Nat → Text
  | (width, marks) :: layout, n :: numbers =>
    padZeros width (numeral n) ++ (marks ++ writeFields layout numbers)
  | _, _ => []

/-- The length of the texts of a layout. -/
def layoutLength : List (Nat × Text) → Nat
  | [] => 0
  | (width, marks) :: layout => width + (marks.length + layoutLength layout)

/-- There is a number for each width, and it fits. -/
def FitsLayout (layout : List (Nat × Text)) (numbers : List Nat) : Prop :=
  List.Forall₂ (fun field n => 0 < field.1 ∧ n < tenPow field.1) layout numbers

section Layout

variable {layout : List (Nat × Text)} {numbers numbers' : List Nat}

theorem length_writeFields (h : FitsLayout layout numbers) :
    (writeFields layout numbers).length = layoutLength layout := by
  induction h with
  | nil => rfl
  | cons hfield _ ih =>
    rw [writeFields, layoutLength, List.length_append, List.length_append,
      length_padZeros_numeral hfield.1 hfield.2, ih]

/-- **The texts of a layout are in the order of the numbers**, of which the first that differ
decide. -/
theorem writeFields_lt_iff (h : FitsLayout layout numbers) (h' : FitsLayout layout numbers') :
    writeFields layout numbers < writeFields layout numbers' ↔ numbers < numbers' := by
  induction h generalizing numbers' with
  | nil =>
    cases h'
    simp [writeFields]
  | @cons field n layout numbers hfield _ ih =>
    cases h' with
    | @cons _ n' _ numbers' hfield' hrest' =>
      have hlength := length_padZeros_numeral hfield.1 hfield.2
      have hlength' := length_padZeros_numeral hfield'.1 hfield'.2
      have hwords := hlength.trans hlength'.symm
      have hmarks : ¬field.2 < field.2 := List.lt_irrefl field.2
      rw [writeFields, writeFields, append_lt_append_iff hwords,
        lt_iff_digitsValue_lt hwords isDigit_of_mem_padZeros isDigit_of_mem_padZeros,
        digitsValue_padZeros, digitsValue_padZeros, digitsValue_numeral, digitsValue_numeral,
        padZeros_numeral_inj, append_lt_append_iff rfl, ih hrest', List.cons_lt_cons_iff]
      simp only [hmarks, false_or, true_and]

theorem writeFields_inj (h : FitsLayout layout numbers) (h' : FitsLayout layout numbers') :
    writeFields layout numbers = writeFields layout numbers' ↔ numbers = numbers' := by
  induction h generalizing numbers' with
  | nil =>
    cases h'
    simp
  | @cons field n layout numbers hfield _ ih =>
    cases h' with
    | @cons _ n' _ numbers' hfield' hrest' =>
      have hlength := length_padZeros_numeral hfield.1 hfield.2
      have hlength' := length_padZeros_numeral hfield'.1 hfield'.2
      constructor
      · intro heq
        obtain ⟨hwords, hbehind⟩ := List.append_inj heq (hlength.trans hlength'.symm)
        rw [padZeros_numeral_inj.1 hwords, (ih hrest').1 (List.append_cancel_left hbehind)]
      · intro heq
        rw [heq]

end Layout

end UriTemplate
