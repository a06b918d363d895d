import Mathlib.Tactic.SplitIfs
import UriTemplate.Json.Print
import UriTemplate.Json.Token

/-!
# Strings of JSON text

Every character is written as one of three things: an escape of one letter, an escape of four
hexadecimal digits, or itself (`Written`). Whichever it is, the reader of strings takes it back in
one step and goes on behind it (`readString_jsonChar`), so it takes back every text
(`readString_flatMap`).
-/

namespace UriTemplate
set_option autoImplicit false
open JsonToken

theorem readString_escaped {c x : Char} (hc : c ≠ 'u') (hx : escaped? c = some x) (s : Text) :
    readString ('\\' :: c :: s) = (readString s).map fun (text, rest) => (x :: text, rest) := by
  rw [readString.eq_def]
  split <;> rename_i heq
  · cases heq
  · cases heq
  · cases heq
    exact absurd rfl hc
  · cases heq
    rw [hx]
    rfl
  · rename_i hletter
    cases heq
    exact (hletter c s rfl rfl).elim

theorem hexWordValue?_lowerHex : ∀ n < 32, hexWordValue? (lowerHex 4 n) = some n := by decide

/-- Control characters are no halves of surrogate pairs, so nothing more is read for them. -/
theorem readString_lowerHex {n : Nat} (h : n < 32) (s : Text) :
    readString ('\\' :: 'u' :: (lowerHex 4 n ++ s)) =
      (readString s).map fun (text, rest) => (Char.ofNat n :: text, rest) := by
  obtain ⟨a, b, c, d, hdigits⟩ : ∃ a b c d, lowerHex 4 n = [a, b, c, d] := ⟨_, _, _, _, rfl⟩
  have hvalue := hexWordValue?_lowerHex n h
  rw [hdigits] at hvalue
  have hhigh : isHighSurrogate n = false := by
    simp only [isHighSurrogate, Bool.and_eq_false_iff, decide_eq_false_iff_not]
    omega
  have hlow : isLowSurrogate n = false := by
    simp only [isLowSurrogate, Bool.and_eq_false_iff, decide_eq_false_iff_not]
    omega
  rw [hdigits]
  show readString ('\\' :: 'u' :: a :: b :: c :: d :: s) = _
  rw [readString, hvalue]
  simp [hhigh, hlow]

theorem readString_plain {c : Char} (hquote : c ≠ '"') (hslash : c ≠ '\\')
    (hcontrol : ¬c.toNat < 32) (s : Text) :
    readString (c :: s) = (readString s).map fun (text, rest) => (c :: text, rest) := by
  rw [readString.eq_def]
  split <;> rename_i heq
  · cases heq
  · cases heq
    exact absurd rfl hquote
  · cases heq
    exact absurd rfl hslash
  · cases heq
    exact absurd rfl hslash
  · cases heq
    rw [if_neg (by simp only [hcontrol, hslash, or_self, not_false_eq_true])]

/-- The three ways in which a character is written. -/
inductive Written (c : Char) : Text → Prop
  | letter {x : Char} : x ≠ 'u' → escaped? x = some c → Written c ['\\', x]
  | digits : c.toNat < 32 → Written c ('\\' :: 'u' :: lowerHex 4 c.toNat)
  | self : c ≠ '"' → c ≠ '\\' → ¬c.toNat < 32 → Written c [c]

theorem written_jsonChar (c : Char) : Written c (jsonChar c) := by
  have hcode : ∀ n, c.toNat = n → Char.ofNat n = c := by
    rintro n rfl
    exact Char.ofNat_toNat c
  unfold jsonChar
  split_ifs with hquote hslash hline htab hreturn hbackspace hfeed hcontrol
  · exact .letter (by decide) (congrArg some hquote.symm)
  · exact .letter (by decide) (congrArg some hslash.symm)
  · exact .letter (by decide) (congrArg some hline.symm)
  · exact .letter (by decide) (congrArg some htab.symm)
  · exact .letter (by decide) (congrArg some hreturn.symm)
  · exact .letter (by decide) (congrArg some (hcode 8 hbackspace))
  · exact .letter (by decide) (congrArg some (hcode 12 hfeed))
  · exact .digits hcontrol
  · exact .self hquote hslash hcontrol

/-- **One character** is taken back, and the reader goes on behind it. -/
theorem readString_jsonChar (c : Char) (s : Text) :
    readString (jsonChar c ++ s) = (readString s).map fun (text, rest) => (c :: text, rest) := by
  have hwritten := written_jsonChar c
  generalize jsonChar c = w at hwritten ⊢
  cases hwritten with
  | letter hletter hescaped => exact readString_escaped hletter hescaped s
  | digits hcontrol =>
    have hread := readString_lowerHex hcontrol s
    rw [Char.ofNat_toNat] at hread
    exact hread
  | self hquote hslash hcontrol => exact readString_plain hquote hslash hcontrol s

/-- **Every text** is taken back from its string, through the closing quote. -/
theorem readString_flatMap (text s : Text) :
    readString (text.flatMap jsonChar ++ '"' :: s) = some (text, s) := by
  induction text with
  | nil => rw [List.flatMap_nil, List.nil_append, readString]
  | cons c text ih =>
    rw [List.flatMap_cons, List.append_assoc, readString_jsonChar, ih]
    rfl

end UriTemplate
