import UriTemplate.Proofs.Json.Meaning
import UriTemplate.Proofs.Json.Tokens

/-!
# Finite numbers in JSON text

A numeral beyond the greatest number is refused, so every number that is read is finite
(`isFinite_of_toNumber?`), and with them all numbers of the document that a text writes
(`finite_of_tokens?`).
-/

namespace UriTemplate
set_option autoImplicit false

theorem pattern_ofPattern (negative : Bool) {pattern : Nat} (h : pattern < twoPow 63) :
    (Binary.ofPattern (f := .double) negative pattern).pattern = pattern := by
  have hsign : twoPow 63 = 9223372036854775808 := rfl
  have hbits : ∀ n, (BitVec.ofNat Format.double.width n).toNat = n % 18446744073709551616 :=
    fun n => BitVec.toNat_ofNat n 64
  show (BitVec.ofNat _ _).toNat % twoPow 63 = pattern
  rw [hbits]
  cases negative with
  | false =>
    show (pattern + 0) % 18446744073709551616 % twoPow 63 = pattern
    rw [hsign] at h ⊢
    omega
  | true =>
    show (pattern + twoPow 63) % 18446744073709551616 % twoPow 63 = pattern
    rw [hsign] at h ⊢
    omega

/-- A pattern below that of infinity is that of a finite number. -/
theorem isFinite_ofPattern (negative : Bool) {pattern : Nat}
    (h : pattern < Format.double.infinity) :
    (Binary.ofPattern (f := .double) negative pattern).isFinite = true := by
  have hinfinity : Format.double.infinity < twoPow 63 := by decide
  rw [Binary.isFinite, pattern_ofPattern negative (Nat.lt_trans h hinfinity)]
  exact decide_eq_true h

theorem isFinite_of_toReal? {literal : NumberLiteral} {x : Binary .double}
    (h : literal.toReal? = some x) : x.isFinite = true := by
  simp only [NumberLiteral.toReal?, Option.bind_eq_bind, Option.bind_eq_some_iff] at h
  obtain ⟨pattern, -, h⟩ := h
  split at h
  · rename_i hfinite
    cases h
    exact isFinite_ofPattern _ hfinite
  · cases h

/-- A number that is read is finite. -/
theorem isFinite_of_toNumber? {literal : NumberLiteral} {n : JsonNumber}
    (h : literal.toNumber? = some n) : n.IsFinite := by
  have hreal : ∀ n, literal.toReal?.map .real = some n → JsonNumber.IsFinite n := by
    intro n hn
    obtain ⟨x, hx, rfl⟩ := Option.map_eq_some_iff.1 hn
    exact isFinite_of_toReal? hx
  unfold NumberLiteral.toNumber? at h
  simp only at h
  split at h
  · split at h
    · cases h
      trivial
    split at h
    · cases h
      trivial
    · exact hreal n h
  · exact hreal n h

theorem isFinite_of_readNumber? {negative : Bool} {s rest : Text} {n : JsonNumber}
    (h : JsonToken.readNumber? negative s = some (.number n, rest)) : n.IsFinite := by
  simp only [JsonToken.readNumber?, Option.bind_eq_bind, Option.bind_eq_some_iff] at h
  obtain ⟨⟨literal, rest'⟩, -, m, hm, h⟩ := h
  cases h
  exact isFinite_of_toNumber? hm

theorem isFinite_of_read? {c : Char} {s rest : Text} {n : JsonNumber}
    (h : JsonToken.read? c s = some (.number n, rest)) : n.IsFinite := by
  unfold JsonToken.read? at h
  split at h
  case h_7 =>
    obtain ⟨_, -, heq⟩ := Option.map_eq_some_iff.1 h
    cases heq
  case h_11 => exact isFinite_of_readNumber? h
  case h_12 =>
    split at h
    · exact isFinite_of_readNumber? h
    · cases h
  all_goals cases h

theorem isFinite_of_go {fuel : Nat} {s : Text} {tokens : List JsonToken}
    (h : JsonToken.tokens?.go fuel s = some tokens) {n : JsonNumber}
    (hn : .number n ∈ tokens) : n.IsFinite := by
  induction fuel generalizing s tokens with
  | zero =>
    cases s with
    | nil => cases h; cases hn
    | cons c s => cases h
  | succ fuel ih =>
    cases s with
    | nil => cases h; cases hn
    | cons c s =>
      rw [JsonToken.tokens?.go] at h
      split at h
      · exact ih h hn
      · obtain ⟨⟨token, rest⟩, hread, hmore⟩ := Option.bind_eq_some_iff.1 h
        obtain ⟨more, hgo, rfl⟩ := Option.map_eq_some_iff.1 hmore
        rcases List.mem_cons.1 hn with rfl | hn
        · exact isFinite_of_read? hread
        · exact ih hgo hn

mutual

/-- A document is finite if its tokens are. -/
theorem finite_of_tokens : ∀ j : Json, (∀ n, .number n ∈ j.tokens → n.IsFinite) → j.Finite
  | .null, _ => .null
  | .bool b, _ => .bool b
  | .number n, h => .number (h n List.mem_cons_self)
  | .string s, _ => .string s
  | .array items, h => .array (finite_of_itemTokens items fun n hn => h n (by
      cases items <;> simp_all [Json.tokens, Json.itemTokens]))
  | .object fields, h => .object (finite_of_fieldTokens fields fun n hn => h n (by
      cases fields <;> simp_all [Json.tokens, Json.fieldTokens]))

theorem finite_of_itemTokens : ∀ items, (∀ n, .number n ∈ Json.itemTokens items → n.IsFinite) →
    ∀ item ∈ items, item.Finite
  | [], _ => List.forall_mem_nil _
  | item :: items, h => List.forall_mem_cons.2
    ⟨finite_of_tokens item fun n hn => h n (by simp [Json.itemTokens, hn]),
      finite_of_itemTokens items fun n hn => h n (by simp [Json.itemTokens, hn])⟩

theorem finite_of_fieldTokens : ∀ fields,
    (∀ n, .number n ∈ Json.fieldTokens fields → n.IsFinite) → ∀ f ∈ fields, f.2.Finite
  | [], _ => List.forall_mem_nil _
  | (_, item) :: fields, h => List.forall_mem_cons.2
    ⟨finite_of_tokens item fun n hn => h n (by simp [Json.fieldTokens, hn]),
      finite_of_fieldTokens fields fun n hn => h n (by simp [Json.fieldTokens, hn])⟩

end

/-- The numbers of a document in a text are finite. -/
theorem finite_of_tokens? {s : Text} {j : Json} (h : JsonToken.tokens? s = some j.tokens) :
    j.Finite :=
  finite_of_tokens j fun _ hn => isFinite_of_go h hn

end UriTemplate
