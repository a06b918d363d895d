import UriTemplate.Proofs.Percent.Encoding
import UriTemplate.Proofs.Template.Grammar

/-!
# The alphabet of names

Names are written with the characters that plain encodings are written with, so a character that
the encoder never writes occurs in no name either (`not_mem_varName`).
-/

namespace UriTemplate
set_option autoImplicit false

theorem isAlphanum_of_isHexDigit {c : Char} (h : Grammar.IsHexDigit c) : c.isAlphanum = true := by
  have hascii : c.toNat < 128 := by
    have hle : ∀ d : Char, c ≤ d → c.toNat ≤ d.toNat := fun d hd => UInt32.le_iff_toNat_le.1 hd
    rcases h with ⟨-, h⟩ | ⟨-, h⟩ | ⟨-, h⟩ <;> exact Nat.lt_of_le_of_lt (hle _ h) (by decide)
  have hall : ∀ n < 128, (('0' ≤ Char.ofNat n ∧ Char.ofNat n ≤ '9') ∨
      ('A' ≤ Char.ofNat n ∧ Char.ofNat n ≤ 'F') ∨ ('a' ≤ Char.ofNat n ∧ Char.ofNat n ≤ 'f')) →
      (Char.ofNat n).isAlphanum = true := by decide
  have hc := hall c.toNat hascii
  rw [Char.ofNat_toNat] at hc
  exact hc h

theorem isPlainOutput_of_isAlphanum {c : Char} (h : c.isAlphanum = true) :
    Percent.isPlainOutput c = true := by
  simp [Percent.isPlainOutput, Percent.isUnreserved, h]

theorem isPlainOutput_of_varChar {w : Text} {c : Char} (h : Grammar.VarChar w) (hc : c ∈ w) :
    Percent.isPlainOutput c = true := by
  cases h with
  | letter h =>
    rw [List.mem_singleton.1 hc]
    exact isPlainOutput_of_isAlphanum (by simp [Char.isAlphanum, h])
  | digit h =>
    rw [List.mem_singleton.1 hc]
    exact isPlainOutput_of_isAlphanum (by simp [Char.isAlphanum, h])
  | underscore =>
    rw [List.mem_singleton.1 hc]
    decide
  | triplet ha hb =>
    simp only [List.mem_cons, List.not_mem_nil, or_false] at hc
    rcases hc with rfl | rfl | rfl
    · decide
    · exact isPlainOutput_of_isAlphanum (isAlphanum_of_isHexDigit ha)
    · exact isPlainOutput_of_isAlphanum (isAlphanum_of_isHexDigit hb)

theorem isPlainOutput_of_varCharTail {s : Text} (h : Grammar.VarCharTail s) :
    ∀ c ∈ s, Percent.isPlainOutput c = true := by
  induction h with
  | nil => simp
  | plain hw _ ih =>
    intro c hc
    rcases List.mem_append.1 hc with hc | hc
    · exact isPlainOutput_of_varChar hw hc
    · exact ih c hc
  | dotted hw _ ih =>
    intro c hc
    rcases List.mem_cons.1 hc with rfl | hc
    · decide
    rcases List.mem_append.1 hc with hc | hc
    · exact isPlainOutput_of_varChar hw hc
    · exact ih c hc

/-- Names have the alphabet of plain encodings. -/
theorem not_mem_varName {name : Text} {c : Char} (h : Grammar.VarName name)
    (hc : Percent.isPlainOutput c = false) : c ∉ name := by
  intro hmem
  have hplain : Percent.isPlainOutput c = true := by
    cases h with
    | mk hw hs =>
      rcases List.mem_append.1 hmem with hmem | hmem
      · exact isPlainOutput_of_varChar hw hmem
      · exact isPlainOutput_of_varCharTail hs c hmem
  rw [hplain] at hc
  cases hc

end UriTemplate
