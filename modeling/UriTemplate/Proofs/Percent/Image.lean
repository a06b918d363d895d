import UriTemplate.Proofs.Percent.FormDecoding
import UriTemplate.Proofs.Uri.Legal

/-!
# The image of plain encoding

Plain encoding takes a text byte by byte (`encode_eq_flatMap`): a byte is written as the character
that it is in ASCII, as a plus sign, or as a triplet. Form decoding gives the bytes back, so a text
that spells each byte in the way the encoder would is determined by what it decodes to. These texts
are the canonical ones, and plain encoding is a bijection onto those of them that are UTF-8.
-/

namespace UriTemplate.Percent
set_option autoImplicit false

/-- The characters that plain encoding leaves alone. -/
def IsKept (c : Char) : Prop := Uri.IsUnreserved c ∨ c ∈ ['!', '*', '(', ')']

instance (c : Char) : Decidable (IsKept c) := inferInstanceAs (Decidable (_ ∨ _))

/-- `%x30-39 / %x41-46` -/
def IsUpperHexDigit (c : Char) : Prop := c ∈ "0123456789ABCDEF".toList

instance (c : Char) : Decidable (IsUpperHexDigit c) := inferInstanceAs (Decidable (_ ∈ _))

/-- Texts that have one spelling for each byte: characters that are kept, plus signs for spaces, and
upper-case triplets of bytes that are neither a space nor a character that is kept. -/
inductive Canonical : Text → Prop
  | nil : Canonical []
  | kept {c : Char} {u : Text} : IsKept c → Canonical u → Canonical (c :: u)
  | plus {u : Text} : Canonical u → Canonical ('+' :: u)
  | triplet {a b : Char} {high low : Nat} {u : Text} :
      IsUpperHexDigit a → hexValue? a = some high → IsUpperHexDigit b → hexValue? b = some low →
      (∀ c, c = ' ' ∨ IsKept c → c.toNat ≠ 16 * high + low) → Canonical u →
      Canonical ('%' :: a :: b :: u)

/-- How plain encoding writes a byte. -/
def writeByte (byte : UInt8) : Text :=
  if byte.toNat < 128 then encodeHead false (Char.ofNat byte.toNat) [] else triplet byte

/-! ## Characters and their bytes -/

theorem isKept_iff {c : Char} : IsKept c ↔ (isUnreserved c || isFormMark c) = true := by
  simp only [IsKept, Uri.IsUnreserved, isUnreserved, isFormMark, Char.isAlphanum, Bool.or_eq_true,
    decide_eq_true_eq, List.mem_cons, List.not_mem_nil, or_false]
  tauto

theorem isAscii_of_isKept {c : Char} (h : IsKept c) : c.toNat < 128 := by
  have hplain : Uri.IsUnreserved c ∨ Uri.IsReserved c := by
    refine h.imp_right fun hmark => .inr ?_
    have hmarks : ['!', '*', '(', ')'] ⊆ "!$&'()*+,;=".toList := by decide
    exact hmarks hmark
  have hvisible := Uri.visible_of_plain hplain
  omega

theorem toNat_ofNat_of_ascii : ∀ n < 128, (Char.ofNat n).toNat = n := by decide

theorem utf8EncodeChar_of_ascii {c : Char} (h : c.toNat < 128) :
    String.utf8EncodeChar c = [UInt8.ofNat c.toNat] := by
  have hle : c.val.toNat ≤ 0x7f := Nat.le_of_lt_succ h
  exact if_pos hle

/-- Beyond ASCII all bytes of a character have their first bit set. -/
theorem le_of_mem_utf8EncodeChar {c : Char} (h : 128 ≤ c.toNat) :
    ∀ byte ∈ String.utf8EncodeChar c, 128 ≤ byte.toNat := by
  have hlt : ¬c.val.toNat ≤ 0x7f := Nat.not_le.2 h
  unfold String.utf8EncodeChar
  simp only [if_neg hlt]
  split
  · simp only [List.forall_mem_cons, UInt8.toNat_ofNat']
    refine ⟨by omega, by omega, by simp⟩
  split
  · simp only [List.forall_mem_cons, UInt8.toNat_ofNat']
    refine ⟨by omega, by omega, by omega, by simp⟩
  · simp only [List.forall_mem_cons, UInt8.toNat_ofNat']
    refine ⟨by omega, by omega, by omega, by omega, by simp⟩

/-! ## Encoding byte by byte -/

theorem encodeHead_of_not_isKept {c : Char} (hspace : c ≠ ' ') (hkept : ¬IsKept c) (rest : Text) :
    encodeHead false c rest = escape c := by
  rw [isKept_iff] at hkept
  simp [encodeHead, hspace, hkept]

theorem encodeHead_of_isKept {c : Char} (hkept : IsKept c) (rest : Text) :
    encodeHead false c rest = [c] := by
  have hspace : c ≠ ' ' := by
    rintro rfl
    revert hkept
    decide
  rw [isKept_iff] at hkept
  simp [encodeHead, hspace, hkept]

theorem writeByte_of_ascii {c : Char} (h : c.toNat < 128) :
    writeByte (UInt8.ofNat c.toNat) = encodeHead false c [] := by
  have hbyte : (UInt8.ofNat c.toNat).toNat = c.toNat := by
    rw [UInt8.toNat_ofNat']
    omega
  rw [writeByte, hbyte, if_pos h, Char.ofNat_toNat]

theorem flatMap_writeByte {bytes : List UInt8} (h : ∀ byte ∈ bytes, 128 ≤ byte.toNat) :
    bytes.flatMap writeByte = bytes.flatMap triplet :=
  List.flatMap_congr fun byte hbyte => if_neg (Nat.not_lt.2 (h byte hbyte))

theorem encodeHead_eq_flatMap (c : Char) (rest : Text) :
    encodeHead false c rest = (String.utf8EncodeChar c).flatMap writeByte := by
  by_cases h : c.toNat < 128
  · rw [utf8EncodeChar_of_ascii h, List.flatMap_singleton, writeByte_of_ascii h]
    rfl
  · have hbytes := le_of_mem_utf8EncodeChar (Nat.not_lt.1 h)
    have hspace : c ≠ ' ' := by
      rintro rfl
      exact h (by decide)
    rw [flatMap_writeByte hbytes]
    exact encodeHead_of_not_isKept hspace (fun hkept => h (isAscii_of_isKept hkept)) rest

/-- Plain encoding writes the bytes of the text, each on its own. -/
theorem encode_eq_flatMap (s : Text) :
    encode false s = (s.flatMap String.utf8EncodeChar).flatMap writeByte := by
  induction s with
  | nil => rfl
  | cons c s ih =>
    rw [encode, encodeHead_eq_flatMap, ih, List.flatMap_cons, List.flatMap_append]

/-! ## Canonical texts -/

theorem hexDigit_of_isUpperHexDigit {a : Char} {high : Nat} (h : IsUpperHexDigit a)
    (hvalue : hexValue? a = some high) : high < 16 ∧ hexDigit high = a := by
  have hall : "0123456789ABCDEF".toList.all (fun a =>
      (hexValue? a).all fun high => high < 16 && hexDigit high = a) = true := by decide
  have ha := List.all_eq_true.1 hall a h
  rw [hvalue] at ha
  simpa using ha

theorem isUpperHexDigit_hexDigit : ∀ n < 16, IsUpperHexDigit (hexDigit n) := by decide

theorem triplet_of_isUpperHexDigit {a b : Char} {high low : Nat} (ha : IsUpperHexDigit a)
    (hhigh : hexValue? a = some high) (hb : IsUpperHexDigit b) (hlow : hexValue? b = some low) :
    triplet (UInt8.ofNat (16 * high + low)) = ['%', a, b] := by
  obtain ⟨hhighlt, rfl⟩ := hexDigit_of_isUpperHexDigit ha hhigh
  obtain ⟨hlowlt, rfl⟩ := hexDigit_of_isUpperHexDigit hb hlow
  have hbyte : (UInt8.ofNat (16 * high + low)).toNat = 16 * high + low := by
    rw [UInt8.toNat_ofNat']
    omega
  have hdiv : (16 * high + low) / 16 = high := by omega
  have hmod : (16 * high + low) % 16 = low := by omega
  rw [triplet, hbyte, hdiv, hmod]

/-- The byte of a canonical triplet is written as a triplet. -/
theorem writeByte_eq_triplet {byte : UInt8}
    (h : ∀ c, c = ' ' ∨ IsKept c → c.toNat ≠ byte.toNat) : writeByte byte = triplet byte := by
  by_cases hascii : byte.toNat < 128
  · have hcode : (Char.ofNat byte.toNat).toNat = byte.toNat := toNat_ofNat_of_ascii _ hascii
    have hspace : Char.ofNat byte.toNat ≠ ' ' := fun heq => h _ (.inl heq) hcode
    have hkept : ¬IsKept (Char.ofNat byte.toNat) := fun hkept => h _ (.inr hkept) hcode
    rw [writeByte, if_pos hascii, encodeHead_of_not_isKept hspace hkept, escape,
      utf8EncodeChar_of_ascii (by omega), hcode, UInt8.ofNat_toNat, List.flatMap_singleton]
  · exact if_neg hascii

/-- **A canonical text is spelled as the encoder spells its bytes.** -/
theorem Canonical.eq_flatMap {u : Text} (h : Canonical u) :
    ∃ bytes, formBytes? u = some bytes ∧ bytes.flatMap writeByte = u := by
  induction h with
  | nil => exact ⟨[], rfl, rfl⟩
  | @kept c u hkept _ ih =>
    obtain ⟨bytes, hbytes, rfl⟩ := ih
    refine ⟨String.utf8EncodeChar c ++ bytes, ?_, ?_⟩
    · have hread := formBytes?_encodeHead c [] (bytes.flatMap writeByte)
      rwa [encodeHead_of_isKept hkept, hbytes] at hread
    · rw [List.flatMap_append, ← encodeHead_eq_flatMap c [], encodeHead_of_isKept hkept]
      rfl
  | @plus u _ ih =>
    obtain ⟨bytes, hbytes, rfl⟩ := ih
    refine ⟨0x20 :: bytes, ?_, rfl⟩
    have hread := formBytes?_encodeHead ' ' [] (bytes.flatMap writeByte)
    rwa [hbytes] at hread
  | @triplet a b high low u ha hhigh hb hlow hother _ ih =>
    obtain ⟨bytes, hbytes, rfl⟩ := ih
    have htriplet := triplet_of_isUpperHexDigit ha hhigh hb hlow
    have hbyte : (UInt8.ofNat (16 * high + low)).toNat = 16 * high + low := by
      have hhighlt := (hexDigit_of_isUpperHexDigit ha hhigh).1
      have hlowlt := (hexDigit_of_isUpperHexDigit hb hlow).1
      rw [UInt8.toNat_ofNat']
      omega
    refine ⟨UInt8.ofNat (16 * high + low) :: bytes, ?_, ?_⟩
    · have hread := formBytes?_triplet (UInt8.ofNat (16 * high + low)) (bytes.flatMap writeByte)
      rwa [htriplet, hbytes] at hread
    · rw [List.flatMap_cons, writeByte_eq_triplet (hbyte.symm ▸ hother), htriplet]
      rfl

/-- What is put in front of a canonical text for a byte keeps it canonical. -/
theorem Canonical.writeByte_append {u : Text} (h : Canonical u) (byte : UInt8) :
    Canonical (writeByte byte ++ u) := by
  have hlt := byte.toNat_lt
  by_cases hother : ∀ c, c = ' ' ∨ IsKept c → c.toNat ≠ byte.toNat
  · rw [writeByte_eq_triplet hother]
    have hhigh : byte.toNat / 16 < 16 := by omega
    have hlow : byte.toNat % 16 < 16 := by omega
    have hsum : 16 * (byte.toNat / 16) + byte.toNat % 16 = byte.toNat := Nat.div_add_mod ..
    exact .triplet (isUpperHexDigit_hexDigit _ hhigh) (hexValue?_hexDigit _ hhigh)
      (isUpperHexDigit_hexDigit _ hlow) (hexValue?_hexDigit _ hlow) (hsum.symm ▸ hother) h
  · simp only [not_forall, not_not] at hother
    obtain ⟨c, hc, hcode⟩ := hother
    have hbyte : UInt8.ofNat c.toNat = byte := by rw [hcode, UInt8.ofNat_toNat]
    rcases hc with rfl | hkept
    · rw [← hbyte]
      exact .plus h
    · rw [← hbyte, writeByte_of_ascii (isAscii_of_isKept hkept), encodeHead_of_isKept hkept]
      exact .kept hkept h

theorem canonical_encode (s : Text) : Canonical (encode false s) := by
  rw [encode_eq_flatMap]
  induction s.flatMap String.utf8EncodeChar with
  | nil => exact .nil
  | cons byte bytes ih =>
    rw [List.flatMap_cons]
    exact ih.writeByte_append byte

/-! ## Main statement -/

/-- What a text decodes to has the bytes of the text as its UTF-8. -/
theorem formBytes?_of_formDecode {u s : Text} (h : formDecode u = some s) :
    formBytes? u = some (s.flatMap String.utf8EncodeChar) := by
  obtain ⟨bytes, hbytes, hdecode⟩ := Option.bind_eq_some_iff.1 h
  obtain ⟨chars, hchars, rfl⟩ := Option.map_eq_some_iff.1 hdecode
  have hencode : chars.toList.utf8Encode = bytes.toByteArray := by
    have hget := @ByteArray.utf8Encode_get_utf8Decode? bytes.toByteArray (by rw [hchars]; rfl)
    simpa only [hchars, Option.get_some] using hget
  rw [hbytes]
  exact congrArg some (List.toByteArray_inj.1 hencode.symm)

/-- **Plain encoding is a bijection** from all texts to the canonical texts that decode to UTF-8,
with form decoding as its inverse. -/
theorem encode_bijective_onto_canonical :
    (∀ s, formDecode (encode false s) = some s) ∧
    (∀ u s, Canonical u → formDecode u = some s → encode false s = u) ∧
    ∀ s, Canonical (encode false s) := by
  refine ⟨formDecode_encode, fun u s hu hdecode => ?_, canonical_encode⟩
  obtain ⟨bytes, hbytes, hspell⟩ := hu.eq_flatMap
  rw [formBytes?_of_formDecode hdecode, Option.some.injEq] at hbytes
  rw [encode_eq_flatMap, hbytes, hspell]

/-- A letter, a plus sign, the triplets of a character of two bytes, and those of a percent sign and
a plus sign. -/
theorem canonical_sample :
    let u := "a+%C3%A9%25%2B!".toList
    Canonical u ∧ formDecode u = some "a é%+!".toList ∧ encode false "a é%+!".toList = u := by
  intro u
  have hu : Canonical u := canonical_encode "a é%+!".toList
  have hdecode : formDecode u = some "a é%+!".toList := formDecode_encode "a é%+!".toList
  exact ⟨hu, hdecode, encode_bijective_onto_canonical.2.1 u _ hu hdecode⟩

end UriTemplate.Percent
