import UriTemplate.Proofs.Percent.Encoding

/-!
# Form decoding

The inverse of plain encoding, on its own terms: a plus sign is a space, a percent triplet of
either case is a byte, every other character stands for its bytes in UTF-8, and the bytes are read
as UTF-8. `formDecode_encode` says that it reads back every plain encoding.
-/

namespace UriTemplate.Percent
set_option autoImplicit false

/-- The bytes of an encoded text; none if a percent sign has no two hexadecimal digits behind it. -/
def formBytes? : Text → Option (List UInt8)
  | [] => some []
  | '%' :: a :: b :: s => do
    let high ← hexValue? a
    let low ← hexValue? b
    (formBytes? s).map (UInt8.ofNat (16 * high + low) :: ·)
  | c :: s =>
    if c = '%' then none
    else (formBytes? s).map ((if c = '+' then [0x20] else String.utf8EncodeChar c) ++ ·)

/-- The text that an encoded text stands for. -/
def formDecode (s : Text) : Option Text :=
  (formBytes? s).bind fun bytes => bytes.toByteArray.utf8Decode?.map Array.toList

theorem formBytes?_cons {c : Char} (h : c ≠ '%') (s : Text) : formBytes? (c :: s) =
    (formBytes? s).map ((if c = '+' then [0x20] else String.utf8EncodeChar c) ++ ·) := by
  rw [formBytes?.eq_def]
  split
  · simp_all
  · rename_i heq
    exact absurd (List.cons.inj heq).1 h
  · rename_i heq
    obtain ⟨rfl, rfl⟩ := List.cons.inj heq
    simp [h]

theorem formBytes?_triplet (byte : UInt8) (s : Text) :
    formBytes? (triplet byte ++ s) = (formBytes? s).map (byte :: ·) := by
  have hbyte := byte.toNat_lt
  have hhigh := hexValue?_hexDigit (byte.toNat / 16) (by omega)
  have hlow := hexValue?_hexDigit (byte.toNat % 16) (by omega)
  have hsum : UInt8.ofNat (16 * (byte.toNat / 16) + byte.toNat % 16) = byte := by
    rw [Nat.div_add_mod, UInt8.ofNat_toNat]
  show formBytes? ('%' :: hexDigit (byte.toNat / 16) :: hexDigit (byte.toNat % 16) :: s) = _
  simp only [formBytes?, hhigh, hlow, hsum, Option.bind_eq_bind, Option.bind_some]

theorem formBytes?_triplets (bytes : List UInt8) (s : Text) :
    formBytes? (bytes.flatMap triplet ++ s) = (formBytes? s).map (bytes ++ ·) := by
  induction bytes with
  | nil => simp
  | cons byte bytes ih =>
    rw [List.flatMap_cons, List.append_assoc, formBytes?_triplet, ih]
    cases formBytes? s <;> rfl

/-- One character of an encoding reads as the bytes of the character it was written for. -/
theorem formBytes?_encodeHead (c : Char) (rest s : Text) :
    formBytes? (encodeHead false c rest ++ s) =
      (formBytes? s).map (String.utf8EncodeChar c ++ ·) := by
  unfold encodeHead
  split
  · rename_i hspace
    subst hspace
    rw [List.singleton_append, formBytes?_cons (by decide)]
    rfl
  split
  · rename_i hkept
    have hpercent : c ≠ '%' := by
      rintro rfl
      revert hkept
      decide
    have hplus : c ≠ '+' := by
      rintro rfl
      revert hkept
      decide
    rw [List.singleton_append, formBytes?_cons hpercent, if_neg hplus]
  · simp only [Bool.false_and, Bool.false_eq_true, if_false]
    exact formBytes?_triplets _ s

theorem formBytes?_encode (s : Text) :
    formBytes? (encode false s) = some (s.flatMap String.utf8EncodeChar) := by
  induction s with
  | nil => rfl
  | cons c s ih =>
    rw [encode, formBytes?_encodeHead, ih]
    rfl

/-- **Plain encoding is read back** by form decoding. -/
theorem formDecode_encode (s : Text) : formDecode (encode false s) = some s := by
  rw [formDecode, formBytes?_encode]
  have hutf8 : (s.flatMap String.utf8EncodeChar).toByteArray = s.utf8Encode := rfl
  rw [Option.bind_some, hutf8, List.utf8Decode?_utf8Encode]
  simp

end UriTemplate.Percent
