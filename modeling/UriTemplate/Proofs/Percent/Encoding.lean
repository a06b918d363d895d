import UriTemplate.Percent

/-!
# The output of the percent encoder

Every character is written as something, so an encoding is empty only for the empty text. In plain
mode what is written are letters, digits, the marks `-._~!*()`, plus signs and percent triplets
(`isPlainOutput`); none of the characters that separate values in an expansion is among them.
-/

namespace UriTemplate.Percent
set_option autoImplicit false

theorem escape_ne_nil (c : Char) : escape c ≠ [] := by
  unfold escape
  cases h : String.utf8EncodeChar c with
  | nil => exact absurd h String.utf8EncodeChar_ne_nil
  | cons b bytes => simp [triplet]

theorem encodeHead_ne_nil (reserved : Bool) (c : Char) (rest : Text) :
    encodeHead reserved c rest ≠ [] := by
  unfold encodeHead
  split
  · simp
  split
  · simp
  split
  · simp
  · exact escape_ne_nil c

theorem encode_eq_nil_iff {reserved : Bool} {s : Text} : encode reserved s = [] ↔ s = [] := by
  cases s with
  | nil => simp [encode]
  | cons c s => simp [encode, encodeHead_ne_nil]

/-- The characters of plain encodings. -/
def isPlainOutput (c : Char) : Bool := isUnreserved c || isFormMark c || c = '+' || c = '%'

theorem isPlainOutput_hexDigit : ∀ n < 16, isPlainOutput (hexDigit n) = true := by decide

theorem isPlainOutput_of_mem_triplet {byte : UInt8} {c : Char} (h : c ∈ triplet byte) :
    isPlainOutput c = true := by
  have hbyte := byte.toNat_lt
  simp only [triplet, List.mem_cons, List.not_mem_nil, or_false] at h
  rcases h with rfl | rfl | rfl
  · decide
  · exact isPlainOutput_hexDigit _ (by omega)
  · exact isPlainOutput_hexDigit _ (by omega)

theorem isPlainOutput_of_mem_encodeHead {c d : Char} {rest : Text}
    (h : d ∈ encodeHead false c rest) : isPlainOutput d = true := by
  unfold encodeHead at h
  split at h
  · rw [List.mem_singleton.1 h]
    decide
  split at h
  · rename_i hkept
    rw [List.mem_singleton.1 h]
    simp [isPlainOutput, hkept]
  · simp only [Bool.false_and, Bool.false_eq_true, if_false] at h
    obtain ⟨byte, -, hmem⟩ := List.mem_flatMap.1 h
    exact isPlainOutput_of_mem_triplet hmem

/-- A plain encoding has only characters of plain encodings. -/
theorem isPlainOutput_of_mem_encode {s : Text} {c : Char} (h : c ∈ encode false s) :
    isPlainOutput c = true := by
  induction s with
  | nil => cases h
  | cons d s ih =>
    rcases List.mem_append.1 h with hhead | htail
    · exact isPlainOutput_of_mem_encodeHead hhead
    · exact ih htail

theorem not_mem_encode {s : Text} {c : Char} (hc : isPlainOutput c = false) :
    c ∉ encode false s := by
  intro h
  rw [isPlainOutput_of_mem_encode h] at hc
  cases hc

end UriTemplate.Percent
