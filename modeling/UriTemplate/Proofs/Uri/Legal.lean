import UriTemplate.Proofs.Template.Names
import UriTemplate.Proofs.Template.Reading

/-!
# Legal text of a URI

What RFC 3986 lets stand in a URI: unreserved and reserved characters, and percent signs with two
hexadecimal digits behind them. Legality is a property of the whole text and not of its characters,
since a percent sign needs what follows it; but legal texts can be put one behind the other
(`Legal.append`), and in a legal text no percent sign is cut off, wherever one looks
(`Legal.percentsComplete`). Names of variables are legal, and so is every encoding, in either mode.
-/

namespace UriTemplate.Uri
set_option autoImplicit false

/-- `unreserved = ALPHA / DIGIT / "-" / "." / "_" / "~"` -/
def IsUnreserved (c : Char) : Prop :=
  c.isAlpha = true ∨ c.isDigit = true ∨ c ∈ ['-', '.', '_', '~']

/-- `reserved = gen-delims / sub-delims` -/
def IsReserved (c : Char) : Prop := c ∈ ":/?#[]@".toList ∨ c ∈ "!$&'()*+,;=".toList

instance (c : Char) : Decidable (IsUnreserved c) := inferInstanceAs (Decidable (_ ∨ _ ∨ _))

instance (c : Char) : Decidable (IsReserved c) := inferInstanceAs (Decidable (_ ∨ _))

/-- `*( unreserved / reserved / pct-encoded )`, where `pct-encoded = "%" HEXDIG HEXDIG` -/
inductive Legal : Text → Prop
  | nil : Legal []
  | plain {c : Char} {s : Text} : IsUnreserved c ∨ IsReserved c → Legal s → Legal (c :: s)
  | triplet {a b : Char} {s : Text} : Grammar.IsHexDigit a → Grammar.IsHexDigit b → Legal s →
      Legal ('%' :: a :: b :: s)

/-- Every percent sign of the text has two hexadecimal digits behind it. -/
def PercentsComplete (s : Text) : Prop := ∀ front rest, s = front ++ '%' :: rest →
  ∃ a b rest', rest = a :: b :: rest' ∧ Grammar.IsHexDigit a ∧ Grammar.IsHexDigit b

/-! ## Characters -/

theorem isUnreserved_of_isAlphanum {c : Char} (h : c.isAlphanum = true) : IsUnreserved c := by
  rw [Char.isAlphanum, Bool.or_eq_true] at h
  exact h.elim .inl fun h => .inr (.inl h)

theorem isUnreserved_of_isHexDigit {c : Char} (h : Grammar.IsHexDigit c) : IsUnreserved c :=
  isUnreserved_of_isAlphanum (isAlphanum_of_isHexDigit h)

theorem ne_percent {c : Char} (h : IsUnreserved c ∨ IsReserved c) : c ≠ '%' := by
  rintro rfl
  revert h
  decide

theorem ne_percent_of_isHexDigit {c : Char} (h : Grammar.IsHexDigit c) : c ≠ '%' :=
  ne_percent (.inl (isUnreserved_of_isHexDigit h))

/-- Unreserved and reserved characters are visible ASCII characters. -/
theorem visible_of_plain {c : Char} (h : IsUnreserved c ∨ IsReserved c) :
    0x20 < c.toNat ∧ c.toNat < 0x7F := by
  -- decided over the list, and not over all characters
  have hmarks : (['-', '.', '_', '~'] ++ ":/?#[]@".toList ++ "!$&'()*+,;=".toList).all
      fun c => 0x20 < c.toNat ∧ c.toNat < 0x7F := by decide
  rcases h with (h | h | h) | h | h
  · change (decide (65 ≤ c.val ∧ c.val ≤ 90) ||
      (decide (97 ≤ c.val) && decide (c.val ≤ 122))) = true at h
    have hletter : (65 ≤ c.toNat ∧ c.toNat ≤ 90) ∨ (97 ≤ c.toNat ∧ c.toNat ≤ 122) := by
      simpa [UInt32.le_iff_toNat_le] using h
    omega
  · have hdigit : 48 ≤ c.toNat ∧ c.toNat ≤ 57 := by
      simpa [Char.isDigit, UInt32.le_iff_toNat_le] using h
    omega
  all_goals exact of_decide_eq_true (List.all_eq_true.1 hmarks c
    (by simp only [List.mem_append, h, true_or, or_true]))

/-! ## What legal text looks like -/

variable {s s' : Text}

theorem Legal.append (h : Legal s) (h' : Legal s') : Legal (s ++ s') := by
  induction h with
  | nil => exact h'
  | plain hc _ ih => exact .plain hc ih
  | triplet ha hb _ ih => exact .triplet ha hb ih

theorem Legal.tail {c : Char} (h : Legal (c :: s)) (hc : c ≠ '%') : Legal s := by
  cases h with
  | plain _ hs => exact hs
  | triplet => exact absurd rfl hc

/-- Legal text is visible ASCII: no space, no control character, nothing beyond. -/
theorem Legal.visible (h : Legal s) : ∀ c ∈ s, 0x20 < c.toNat ∧ c.toNat < 0x7F := by
  induction h with
  | nil => simp
  | plain hc _ ih => exact List.forall_mem_cons.2 ⟨visible_of_plain hc, ih⟩
  | triplet ha hb _ ih =>
    have ha' := visible_of_plain (.inl (isUnreserved_of_isHexDigit ha))
    have hb' := visible_of_plain (.inl (isUnreserved_of_isHexDigit hb))
    simp only [List.forall_mem_cons]
    exact ⟨by decide, ha', hb', ih⟩

theorem PercentsComplete.cons {c : Char} (hc : c ≠ '%') (h : PercentsComplete s) :
    PercentsComplete (c :: s) := by
  intro front rest hs
  rcases List.cons_eq_append_iff.1 hs with ⟨-, hs⟩ | ⟨front', -, hs⟩
  · exact absurd (List.cons.inj hs).1.symm hc
  · exact h front' rest hs

/-- In a legal text no percent sign is cut off. -/
theorem Legal.percentsComplete (h : Legal s) : PercentsComplete s := by
  induction h with
  | nil => simp [PercentsComplete]
  | plain hc _ ih => exact ih.cons (ne_percent hc)
  | triplet ha hb _ ih =>
    have hdigits := (ih.cons (ne_percent_of_isHexDigit hb)).cons (ne_percent_of_isHexDigit ha)
    intro front rest hs
    rcases List.cons_eq_append_iff.1 hs with ⟨-, hs⟩ | ⟨front', -, hs⟩
    · exact ⟨_, _, _, (List.cons.inj hs).2, ha, hb⟩
    · exact hdigits front' rest hs

/-! ## Names and encodings -/

theorem legal_varChar {w : Text} (h : Grammar.VarChar w) : Legal w := by
  cases h with
  | letter h => exact .plain (.inl (.inl h)) .nil
  | digit h => exact .plain (.inl (.inr (.inl h))) .nil
  | underscore => exact .plain (by decide) .nil
  | triplet ha hb => exact .triplet ha hb .nil

theorem legal_varCharTail (h : Grammar.VarCharTail s) : Legal s := by
  induction h with
  | nil => exact .nil
  | plain hw _ ih => exact (legal_varChar hw).append ih
  | dotted hw _ ih => exact .plain (by decide) ((legal_varChar hw).append ih)

theorem legal_varName {name : Text} (h : Grammar.VarName name) : Legal name := by
  cases h with
  | mk hw hs => exact (legal_varChar hw).append (legal_varCharTail hs)

theorem isHexDigit_hexDigit {n : Nat} (h : n < 16) : Grammar.IsHexDigit (hexDigit n) := by
  rw [← isHexDigit_iff, isHexDigit, hexValue?_hexDigit n h]
  rfl

theorem legal_escape (c : Char) : Legal (Percent.escape c) := by
  unfold Percent.escape
  induction String.utf8EncodeChar c with
  | nil => exact .nil
  | cons byte bytes ih =>
    have hbyte := byte.toNat_lt
    exact .triplet (isHexDigit_hexDigit (by omega)) (isHexDigit_hexDigit (by omega)) ih

/-- A character that the encoder keeps for its own sake is a plain one. -/
theorem plain_of_kept {c : Char}
    (h : Percent.isUnreserved c = true ∨ Percent.isFormMark c = true ∨
      Percent.isReserved c = true) : IsUnreserved c ∨ IsReserved c := by
  have hreserved : ":/?#[]@!$&'()*+,;=".toList = ":/?#[]@".toList ++ "!$&'()*+,;=".toList := by
    decide
  rcases h with h | h | h
  · simp only [Percent.isUnreserved, Bool.or_eq_true, decide_eq_true_eq] at h
    rcases h with (((h | rfl) | rfl) | rfl) | rfl
    · exact .inl (isUnreserved_of_isAlphanum h)
    all_goals decide
  · simp only [Percent.isFormMark, Bool.or_eq_true, decide_eq_true_eq] at h
    rcases h with ((rfl | rfl) | rfl) | rfl <;> decide
  · have hmem : c ∈ ":/?#[]@!$&'()*+,;=".toList := of_decide_eq_true h
    rw [hreserved] at hmem
    exact .inr (List.mem_append.1 hmem)

/-- A hexadecimal digit is written as it is. -/
theorem encode_hexDigit {reserved : Bool} {c : Char} (h : Grammar.IsHexDigit c) (s : Text) :
    Percent.encode reserved (c :: s) = c :: Percent.encode reserved s := by
  have hspace : c ≠ ' ' := by
    rintro rfl
    revert h
    unfold Grammar.IsHexDigit
    decide
  simp [Percent.encode, Percent.encodeHead, hspace, Percent.isUnreserved,
    isAlphanum_of_isHexDigit h]

/-- The percent sign of a triplet may be kept, since the digits behind it are kept too. -/
theorem legal_keptTriplet {reserved : Bool} {c : Char} {rest : Text}
    (htriplet : Percent.startsTriplet (c :: rest) = true)
    (h : Legal (Percent.encode reserved rest)) : Legal (c :: Percent.encode reserved rest) := by
  unfold Percent.startsTriplet at htriplet
  split at htriplet
  · rename_i a b rest' heq
    obtain ⟨rfl, rfl⟩ := List.cons.inj heq
    simp only [Bool.and_eq_true, isHexDigit_iff] at htriplet
    obtain ⟨ha, hb⟩ := htriplet
    rw [encode_hexDigit ha, encode_hexDigit hb] at h ⊢
    exact .triplet ha hb ((h.tail (ne_percent_of_isHexDigit ha)).tail (ne_percent_of_isHexDigit hb))
  · cases htriplet

/-- **Every encoding is legal**, in either mode and whatever the text. -/
theorem legal_encode (reserved : Bool) (s : Text) : Legal (Percent.encode reserved s) := by
  induction s with
  | nil => exact .nil
  | cons c s ih =>
    show Legal (Percent.encodeHead reserved c s ++ Percent.encode reserved s)
    unfold Percent.encodeHead
    split
    · exact .plain (by decide) ih
    split
    · rename_i hkept
      exact .plain (plain_of_kept ((Bool.or_eq_true _ _ ▸ hkept).imp id .inl)) ih
    split
    · rename_i hkept
      simp only [Bool.and_eq_true, Bool.or_eq_true] at hkept
      rcases hkept.2 with hreserved | htriplet
      · exact .plain (plain_of_kept (.inr (.inr hreserved))) ih
      · exact legal_keptTriplet htriplet ih
    · exact (legal_escape c).append ih

end UriTemplate.Uri
