import UriTemplate.Proofs.Percent.Units

/-!
# Encoding what is encoded

In reserved mode a triplet is kept and a percent sign without one is escaped, so an encoding, which
has no such percent sign, is left alone. Legal texts are just the ones that are left alone. What the
encoder escapes means the same as before to a reader that takes each triplet for its byte and any
other character for its own bytes (`lenientBytes`); only spaces have become plus signs.
-/

namespace UriTemplate.Percent
set_option autoImplicit false

/-- The bytes that a text means: of a triplet, its byte; of any other character, its own bytes. -/
def lenientBytes : Text → List UInt8
  | '%' :: a :: b :: s =>
    match hexValue? a, hexValue? b with
    | some high, some low => UInt8.ofNat (16 * high + low) :: lenientBytes s
    | _, _ => String.utf8EncodeChar '%' ++ lenientBytes (a :: b :: s)
  | c :: s => String.utf8EncodeChar c ++ lenientBytes s
  | [] => []

/-- A character with a plus sign in place of a space. -/
def spaceAsPlus (c : Char) : Char := if c = ' ' then '+' else c

variable {a b c : Char} {s : Text}

/-! ## Legal texts -/

theorem isReserved_of_plain (h : Uri.IsUnreserved c ∨ Uri.IsReserved c) :
    isUnreserved c = true ∨ isReserved c = true := by
  rcases h with h | h
  · refine .inl ?_
    simpa [Uri.IsUnreserved, isUnreserved, Char.isAlphanum, or_assoc] using h
  · have hall : ":/?#[]@".toList ++ "!$&'()*+,;=".toList = ":/?#[]@!$&'()*+,;=".toList := by decide
    refine .inr (decide_eq_true ?_)
    rw [← hall]
    exact List.mem_append.2 h

theorem encodeHead_of_plain (h : Uri.IsUnreserved c ∨ Uri.IsReserved c) (rest : Text) :
    encodeHead true c rest = [c] := by
  have hspace : c ≠ ' ' := by
    rintro rfl
    revert h
    decide
  rcases isReserved_of_plain h with hc | hc <;> simp [encodeHead, hspace, hc]

/-- Legal text is left alone. -/
theorem encode_of_legal (h : Uri.Legal s) : encode true s = s := by
  induction h with
  | nil => rfl
  | plain hc _ ih =>
    rw [encode, encodeHead_of_plain hc, ih]
    rfl
  | triplet ha hb _ ih => rw [encode_triplet (isHexDigit_iff.2 ha) (isHexDigit_iff.2 hb), ih]

theorem encode_eq_self_iff : encode true s = s ↔ Uri.Legal s := by
  constructor
  · intro h
    rw [← h]
    exact Uri.legal_encode true s
  · exact encode_of_legal

/-! ## Meaning -/

theorem lenientBytes_single (h : startsTriplet (c :: s) = false) :
    lenientBytes (c :: s) = String.utf8EncodeChar c ++ lenientBytes s := by
  rw [lenientBytes.eq_def (c :: s)]
  split
  · rename_i a b rest heq
    obtain ⟨rfl, rfl⟩ := List.cons.inj heq
    simp only [startsTriplet, isHexDigit, Bool.and_eq_false_iff, Option.isSome_eq_false_iff,
      Option.isNone_iff_eq_none] at h
    rcases h with h | h
    · rw [h]
    · rw [h]
      cases hexValue? a <;> rfl
  · rename_i heq
    obtain ⟨rfl, rfl⟩ := List.cons.inj heq
    rfl
  · rename_i heq
    cases heq

theorem lenientBytes_of_ne (h : c ≠ '%') (s : Text) :
    lenientBytes (c :: s) = String.utf8EncodeChar c ++ lenientBytes s := by
  refine lenientBytes_single (Bool.eq_false_iff.2 fun htriplet => ?_)
  obtain ⟨a, b, rest, heq, -⟩ := startsTriplet_eq_true_iff.1 htriplet
  exact h (List.cons.inj heq).1

/-- The digits alone decide what a triplet means, and not what is behind it. -/
theorem exists_lenientBytes_triplet (ha : isHexDigit a = true) (hb : isHexDigit b = true) :
    ∃ byte, ∀ s, lenientBytes ('%' :: a :: b :: s) = byte :: lenientBytes s := by
  obtain ⟨high, hhigh⟩ := Option.isSome_iff_exists.1 ha
  obtain ⟨low, hlow⟩ := Option.isSome_iff_exists.1 hb
  refine ⟨UInt8.ofNat (16 * high + low), fun s => ?_⟩
  rw [lenientBytes, hhigh, hlow]

theorem lenientBytes_triplets (bytes : List UInt8) (s : Text) :
    lenientBytes (bytes.flatMap triplet ++ s) = bytes ++ lenientBytes s := by
  induction bytes with
  | nil => rfl
  | cons byte bytes ih =>
    have hbyte := byte.toNat_lt
    have hhigh := hexValue?_hexDigit (byte.toNat / 16) (by omega)
    have hlow := hexValue?_hexDigit (byte.toNat % 16) (by omega)
    rw [List.flatMap_cons, List.append_assoc]
    show lenientBytes ('%' :: hexDigit (byte.toNat / 16) :: hexDigit (byte.toNat % 16) ::
      (bytes.flatMap triplet ++ s)) = _
    rw [lenientBytes, hhigh, hlow]
    simp only [Nat.div_add_mod, UInt8.ofNat_toNat, ih, List.cons_append]

/-- A character that is no triplet's means the same encoded, but for a space. -/
theorem lenientBytes_encodeHead (h : startsTriplet (c :: s) = false) (t : Text) :
    lenientBytes (encodeHead true c s ++ t) =
      String.utf8EncodeChar (spaceAsPlus c) ++ lenientBytes t := by
  unfold encodeHead spaceAsPlus
  split
  · exact lenientBytes_of_ne (by decide) t
  split
  · rename_i hkept
    exact lenientBytes_of_ne
      (Uri.ne_percent (Uri.plain_of_kept ((Bool.or_eq_true _ _ ▸ hkept).imp id .inl))) t
  split
  · rename_i hkept
    rw [h, Bool.or_false, Bool.true_and] at hkept
    exact lenientBytes_of_ne (Uri.ne_percent (Uri.plain_of_kept (.inr (.inr hkept)))) t
  · exact lenientBytes_triplets _ t

theorem spaceAsPlus_of_isHexDigit (h : isHexDigit a = true) : spaceAsPlus a = a := by
  refine if_neg ?_
  rintro rfl
  cases h

theorem isHexDigit_spaceAsPlus (a : Char) : isHexDigit (spaceAsPlus a) = isHexDigit a := by
  unfold spaceAsPlus
  split
  · rename_i h
    subst h
    decide
  · rfl

/-- Plus signs in place of spaces make no triplet. -/
theorem startsTriplet_map (h : startsTriplet (c :: s) = false) :
    startsTriplet (spaceAsPlus c :: s.map spaceAsPlus) = false := by
  refine Bool.eq_false_iff.2 fun htriplet => Bool.eq_false_iff.1 h ?_
  obtain ⟨a, b, rest, heq, ha, hb⟩ := startsTriplet_eq_true_iff.1 htriplet
  obtain ⟨hc, hs⟩ := List.cons.inj heq
  obtain ⟨a', s', rfl, rfl, hs'⟩ := List.map_eq_cons_iff.1 hs
  obtain ⟨b', rest', rfl, rfl, -⟩ := List.map_eq_cons_iff.1 hs'
  rw [isHexDigit_spaceAsPlus] at ha hb
  have hpercent : c = '%' := by
    unfold spaceAsPlus at hc
    split at hc
    · cases hc
    · exact hc
  exact startsTriplet_eq_true_iff.2 ⟨a', b', rest', by rw [hpercent], ha, hb⟩

theorem lenientBytes_encode (s : Text) :
    lenientBytes (encode true s) = lenientBytes (s.map spaceAsPlus) := by
  induction s using unitInduction true with
  | nil => rfl
  | triplet a b s _ ha hb ih =>
    obtain ⟨byte, hbyte⟩ := exists_lenientBytes_triplet ha hb
    have hpercent : spaceAsPlus '%' = '%' := rfl
    rw [encode_triplet ha hb, List.map_cons, List.map_cons, List.map_cons, hpercent,
      spaceAsPlus_of_isHexDigit ha, spaceAsPlus_of_isHexDigit hb, hbyte, hbyte, ih]
  | single c s h ih =>
    rw [Bool.true_and] at h
    rw [encode, lenientBytes_encodeHead h, ih, List.map_cons, lenientBytes_single (startsTriplet_map h)]

/-! ## Main statement -/

/-- **Nothing is encoded twice.** In reserved mode an encoding of either mode is left alone, and so
are just the texts that a URI allows; and an encoding means what the text does with plus signs in
place of its spaces. -/
theorem encode_reserved_faithful (s : Text) :
    encode true (encode true s) = encode true s ∧
    encode true (encode false s) = encode false s ∧
    (encode true s = s ↔ Uri.Legal s) ∧
    lenientBytes (encode true s) = lenientBytes (s.map spaceAsPlus) :=
  ⟨encode_of_legal (Uri.legal_encode true s), encode_of_legal (Uri.legal_encode false s),
    encode_eq_self_iff, lenientBytes_encode s⟩

end UriTemplate.Percent
