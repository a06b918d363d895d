import Mathlib.Data.List.Basic
import Mathlib.Data.List.Induction
import UriTemplate.Text

/-!
# Decimal numerals and the words that are read as numbers

A word of decimal digits that does not start with a zero is the numeral of its value
(`numeral_digitsValue`), so such words and positive numbers are in bijection; the length of the
word bounds the number (`length_numeral_le_four_iff`). With the zero as a word of its own these are
all numerals (`IsNumeral`). `StopsAt` says of a text that a reader which takes as many characters of a
class as it can takes none of it.
-/

namespace UriTemplate
set_option autoImplicit false

/-- The text is empty or starts with a character outside of the class. -/
def StopsAt (p : Char → Bool) (rest : Text) : Prop := ∀ c ∈ rest.head?, p c = false

@[simp] theorem stopsAt_nil (p : Char → Bool) : StopsAt p [] := by simp [StopsAt]

@[simp] theorem stopsAt_cons {p : Char → Bool} {c : Char} {s : Text} :
    StopsAt p (c :: s) ↔ p c = false := by
  simp [StopsAt]

theorem stopsAt_or_iff {p q : Char → Bool} {rest : Text} :
    StopsAt (fun c => p c || q c) rest ↔ StopsAt p rest ∧ StopsAt q rest := by
  cases rest <;> simp

theorem stopsAt_dropWhile (p : Char → Bool) (s : Text) : StopsAt p (s.dropWhile p) := by
  intro c hc
  have h := List.head?_dropWhile_not p s
  rw [Option.mem_def.1 hc] at h
  simpa using h

/-- A maximal run of a class, in front of what does not continue it. -/
theorem takeWhile_append_of_stopsAt {p : Char → Bool} {run rest : Text}
    (hrun : ∀ c ∈ run, p c = true) (hrest : StopsAt p rest) :
    (run ++ rest).takeWhile p = run ∧ (run ++ rest).dropWhile p = rest := by
  rw [List.takeWhile_append_of_pos hrun, List.dropWhile_append_of_pos hrun]
  cases rest with
  | nil => simp
  | cons c s =>
    have hc := stopsAt_cons.1 hrest
    simp [hc]

theorem isDigit_of_mem_numeral {c : Char} {n : Nat} (h : c ∈ numeral n) : c.isDigit = true :=
  Nat.isDigit_of_mem_toDigits (by omega) (by omega) h

theorem numeral_ne_nil (n : Nat) : numeral n ≠ [] := Nat.toDigits_ne_nil

theorem length_numeral_le_four_iff {n : Nat} : (numeral n).length ≤ 4 ↔ n < 10000 :=
  Nat.length_toDigits_le_iff (by omega) (by omega)

/-- A decimal digit is the digit of a number below ten. -/
theorem exists_digitChar {d : Char} (h : d.isDigit = true) : ∃ n < 10, d = Nat.digitChar n := by
  have hd : 48 ≤ d.toNat ∧ d.toNat ≤ 57 := by
    simpa [Char.isDigit, UInt32.le_iff_toNat_le] using h
  refine ⟨d.toNat - 48, by omega, ?_⟩
  apply Char.toNat_inj.1
  rw [Nat.toNat_digitChar_of_lt_ten (by omega)]
  omega

theorem digitsValue_concat {ds : Text} {n : Nat} (hn : n < 10) :
    digitsValue (ds ++ [Nat.digitChar n]) = 10 * digitsValue ds + n := by
  unfold digitsValue
  rw [Nat.ofDigitChars_append, Nat.ofDigitChars_cons_digitChar_of_lt_ten hn, Nat.ofDigitChars_nil]

theorem numeral_append_digit {n d : Nat} (hn : 0 < n) (hd : d < 10) :
    numeral n ++ [Nat.digitChar d] = numeral (10 * n + d) := by
  unfold numeral
  rw [← Nat.toDigits_append_toDigits (by omega) hn hd, Nat.toDigits_of_lt_base hd]

theorem getLast?_numeral (n : Nat) : (numeral n).getLast? = some (Nat.digitChar (n % 10)) := by
  by_cases h : n < 10
  · rw [numeral, Nat.toDigits_of_lt_base h, Nat.mod_eq_of_lt h]
    rfl
  · have hdiv : n = 10 * (n / 10) + n % 10 := by omega
    have hsplit := numeral_append_digit (n := n / 10) (d := n % 10) (by omega) (by omega)
    rw [← hdiv] at hsplit
    rw [← hsplit, List.getLast?_concat]

theorem head?_numeral_ne_zero {n : Nat} (hn : 0 < n) : (numeral n).head? ≠ some '0' := by
  induction n using Nat.strongRecOn with
  | ind n ih =>
    by_cases h : n < 10
    · rw [numeral, Nat.toDigits_of_lt_base h]
      simp
      omega
    · have hdiv : n = 10 * (n / 10) + n % 10 := by omega
      rw [hdiv, ← numeral_append_digit (by omega) (by omega),
        List.head?_append_of_ne_nil _ (numeral_ne_nil _)]
      exact ih (n / 10) (by omega) (by omega)

/-- **Uniqueness.** A word of digits without a zero in front is the numeral of its value, which is
positive. The induction takes the last digit off: what is left still starts without a zero. -/
theorem numeral_digitsValue {ds : Text} (hne : ds ≠ []) (hds : ∀ d ∈ ds, d.isDigit = true)
    (hzero : ds.head? ≠ some '0') : numeral (digitsValue ds) = ds ∧ 0 < digitsValue ds := by
  induction ds using List.reverseRecOn with
  | nil => exact absurd rfl hne
  | append_singleton ds d ih =>
    obtain ⟨n, hn, rfl⟩ := exists_digitChar (hds d (by simp))
    rw [digitsValue_concat hn]
    by_cases hds' : ds = []
    · subst hds'
      have h0 : n ≠ 0 := by
        rintro rfl
        exact hzero rfl
      refine ⟨?_, by omega⟩
      simp [digitsValue, numeral, Nat.toDigits_of_lt_base hn]
    · rw [List.head?_append_of_ne_nil _ hds'] at hzero
      obtain ⟨hword, hpos⟩ := ih hds' (fun c hc => hds c (by simp [hc])) hzero
      refine ⟨?_, by omega⟩
      rw [← numeral_append_digit hpos hn, hword]

/-- A word of digits without a needless zero in front. -/
structure IsNumeral (digits : Text) : Prop where
  ne_nil : digits ≠ []
  isDigit : ∀ d ∈ digits, d.isDigit = true
  eq_zero : digits.head? = some '0' → digits = ['0']

theorem isNumeral_numeral (n : Nat) : IsNumeral (numeral n) := by
  refine ⟨numeral_ne_nil n, fun _ => isDigit_of_mem_numeral, fun h => ?_⟩
  by_cases hn : n = 0
  · subst hn
    rfl
  · exact absurd h (head?_numeral_ne_zero (Nat.pos_of_ne_zero hn))

theorem IsNumeral.numeral_digitsValue {ds : Text} (h : IsNumeral ds) :
    numeral (digitsValue ds) = ds := by
  by_cases hzero : ds.head? = some '0'
  · rw [h.eq_zero hzero]
    rfl
  · exact (UriTemplate.numeral_digitsValue h.ne_nil h.isDigit hzero).1

end UriTemplate
