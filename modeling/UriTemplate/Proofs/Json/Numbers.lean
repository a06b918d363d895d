import UriTemplate.Json.Token
import UriTemplate.Proofs.Text.Numeral

/-!
# Numbers of JSON text

A word of 64 bits is written as its decimal numeral, and the reader of numbers takes the numeral
back as the same word, as long as nothing behind it goes on with it: a digit, a point or the letter
of an exponent (`readNumber?_numeral`).
-/

namespace UriTemplate
set_option autoImplicit false
open JsonToken

/-- Whether a character goes on with a number. -/
def continuesNumber (c : Char) : Bool := c.isDigit || c = '.' || c = 'e' || c = 'E'

theorem stopsAt_digit {rest : Text} (h : StopsAt continuesNumber rest) :
    StopsAt Char.isDigit rest := by
  intro c hc
  have hstop := h c hc
  simp only [continuesNumber, Bool.or_eq_false_iff] at hstop
  exact hstop.1.1.1

/-- Digits do not make a number smaller, so a word that fits in the end fits all along. -/
theorem le_ofDigitChars (digits : Text) (word : Nat) : word ≤ Nat.ofDigitChars 10 digits word := by
  induction digits generalizing word with
  | nil => exact Nat.le_refl word
  | cons c digits ih =>
    rw [Nat.ofDigitChars_cons]
    have hstep := ih (10 * word + (c.toNat - '0'.toNat))
    omega

theorem takeWord_of_lt {digits : Text} {word : Nat}
    (h : Nat.ofDigitChars 10 digits word < UInt64.size) :
    takeWord word digits = (Nat.ofDigitChars 10 digits word, []) := by
  induction digits generalizing word with
  | nil => rfl
  | cons c digits ih =>
    rw [Nat.ofDigitChars_cons] at h ⊢
    have hnext := Nat.lt_of_le_of_lt (le_ofDigitChars digits _) h
    unfold takeWord
    simp only
    rw [if_pos hnext]
    exact ih h

theorem takeWord_numeral {n : Nat} (h : n < UInt64.size) : takeWord 0 (numeral n) = (n, []) := by
  have hvalue : Nat.ofDigitChars 10 (numeral n) 0 = n := Nat.ofDigitChars_ten_toDigits
  have htake := takeWord_of_lt (hvalue.symm ▸ h)
  rw [hvalue] at htake
  exact htake

theorem readDigits?_of_digits {digits rest : Text} (hne : digits ≠ [])
    (hdigits : ∀ c ∈ digits, c.isDigit = true) (hrest : StopsAt Char.isDigit rest) :
    readDigits? (digits ++ rest) = some (digits, rest) := by
  obtain ⟨htake, hdrop⟩ := takeWhile_append_of_stopsAt hdigits hrest
  unfold readDigits?
  rw [htake, hdrop]
  exact if_neg hne

theorem readDigits?_numeral (n : Nat) {rest : Text} (h : StopsAt Char.isDigit rest) :
    readDigits? (numeral n ++ rest) = some (numeral n, rest) :=
  readDigits?_of_digits (numeral_ne_nil n) (fun _ => isDigit_of_mem_numeral) h

theorem readWhole?_numeral (n : Nat) {rest : Text} (h : StopsAt Char.isDigit rest) :
    readWhole? (numeral n ++ rest) = some (numeral n, rest) := by
  by_cases hn : n = 0
  · subst hn
    rfl
  · have hhead : (numeral n ++ rest).head? ≠ some '0' := by
      rw [List.head?_append_of_ne_nil _ (numeral_ne_nil n)]
      exact head?_numeral_ne_zero (Nat.pos_of_ne_zero hn)
    rw [← readDigits?_numeral n h]
    unfold readWhole?
    split
    · rename_i heq
      rw [heq] at hhead
      exact absurd rfl hhead
    · rfl

theorem readLiteral?_numeral (n : Nat) {rest : Text} (h : StopsAt continuesNumber rest) :
    readLiteral? false (numeral n ++ rest) = some (⟨false, numeral n, none, none⟩, rest) := by
  have hfraction : readFraction? rest = some (none, rest) := by
    unfold readFraction?
    split
    · exact absurd (stopsAt_cons.1 h) (by decide)
    · rfl
  have hexponent : readExponent? rest = some (none, rest) := by
    cases rest with
    | nil => rfl
    | cons c rest =>
      have hstop := stopsAt_cons.1 h
      simp only [continuesNumber, Bool.or_eq_false_iff, decide_eq_false_iff_not] at hstop
      have hletter : ¬(c = 'e' ∨ c = 'E') := not_or.2 ⟨hstop.1.2, hstop.2⟩
      exact if_neg hletter
  unfold readLiteral?
  rw [readWhole?_numeral n (stopsAt_digit h)]
  simp [hfraction, hexponent]

theorem toNumber?_numeral (n : UInt64) :
    NumberLiteral.toNumber? ⟨false, numeral n.toNat, none, none⟩ = some (.natural n) := by
  unfold NumberLiteral.toNumber?
  simp only [takeWord_numeral n.toNat_lt]
  simp

/-- **A word** is taken back from its numeral. -/
theorem readNumber?_numeral (n : UInt64) {rest : Text} (h : StopsAt continuesNumber rest) :
    readNumber? false (numeral n.toNat ++ rest) = some (.number (.natural n), rest) := by
  unfold readNumber?
  rw [readLiteral?_numeral n.toNat h]
  simp [toNumber?_numeral]

/-- A number starts with a digit, which no other token starts with. -/
theorem read?_digit {c : Char} (h : c.isDigit = true) (s : Text) :
    read? c s = readNumber? false (c :: s) := by
  obtain ⟨n, hn, rfl⟩ := exists_digitChar h
  have hall : ∀ n < 10,
      Nat.digitChar n ∉ ['[', ']', '{', '}', ',', ':', '"', 'n', 't', 'f', '-'] := by
    decide
  have hnot := hall n hn
  simp only [List.mem_cons, List.not_mem_nil, or_false, not_or] at hnot
  unfold read?
  split <;> simp_all

end UriTemplate
