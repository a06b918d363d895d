import UriTemplate.Proofs.Uri.Legal

/-!
# Units of a text

In reserved mode a complete percent triplet counts as one unit of a text, and any other character
as one; in plain mode each character counts. Both the encoder and the limit of length look for
triplets on their own, the encoder at each percent sign and the limit from unit to unit, but they
agree: a text is encoded unit by unit (`encode_eq_flatMap_units`), and a limit keeps the first units
(`truncate_eq_flatten_take`), which are the units of what is kept (`units_flatten_take`).
-/

namespace UriTemplate.Percent
set_option autoImplicit false

/-- The units of a text. -/
def units (reserved : Bool) : Text → List Text
  | '%' :: a :: b :: s =>
    if reserved && isHexDigit a && isHexDigit b then ['%', a, b] :: units reserved s
    else ['%'] :: units reserved (a :: b :: s)
  | c :: s => [c] :: units reserved s
  | [] => []

variable {reserved : Bool} {a b c : Char} {s t : Text}

/-! ## Triplets and single characters -/

theorem startsTriplet_eq_true_iff : startsTriplet s = true ↔
    ∃ a b rest, s = '%' :: a :: b :: rest ∧ isHexDigit a = true ∧ isHexDigit b = true := by
  constructor
  · unfold startsTriplet
    split
    · rw [Bool.and_eq_true]
      exact fun h => ⟨_, _, _, rfl, h⟩
    · nofun
  · rintro ⟨a, b, rest, rfl, ha, hb⟩
    rw [startsTriplet, ha, hb, Bool.and_self]

/-- A text is empty, starts with a unit of three characters, or starts with one of one. -/
@[elab_as_elim]
theorem unitInduction {P : Text → Prop} (reserved : Bool) (s : Text) (nil : P [])
    (triplet : ∀ a b s, reserved = true → isHexDigit a = true → isHexDigit b = true → P s →
      P ('%' :: a :: b :: s))
    (single : ∀ c s, (reserved && startsTriplet (c :: s)) = false → P s → P (c :: s)) : P s := by
  induction hlength : s.length using Nat.strongRecOn generalizing s with
  | ind length ih =>
    cases s with
    | nil => exact nil
    | cons c s =>
      by_cases h : (reserved && startsTriplet (c :: s)) = true
      · rw [Bool.and_eq_true, startsTriplet_eq_true_iff] at h
        obtain ⟨hreserved, a, b, rest, heq, ha, hb⟩ := h
        rw [heq] at hlength ⊢
        simp only [List.length_cons] at hlength
        exact triplet a b rest hreserved ha hb (ih rest.length (by omega) rest rfl)
      · rw [List.length_cons] at hlength
        exact single c s (Bool.eq_false_iff.2 h) (ih s.length (by omega) s rfl)

/-- A cut does not make a triplet. -/
theorem not_startsTriplet_of_front (hfront : t <+: s)
    (h : (reserved && startsTriplet (c :: s)) = false) :
    (reserved && startsTriplet (c :: t)) = false := by
  rw [Bool.and_eq_false_iff] at h ⊢
  refine h.imp_right fun h => Bool.eq_false_iff.2 fun htriplet => Bool.eq_false_iff.1 h ?_
  obtain ⟨a, b, rest, heq, ha, hb⟩ := startsTriplet_eq_true_iff.1 htriplet
  obtain ⟨rfl, rfl⟩ := List.cons.inj heq
  obtain ⟨rest', rfl⟩ := hfront
  exact startsTriplet_eq_true_iff.2 ⟨a, b, rest ++ rest', rfl, ha, hb⟩

/-! ## One unit -/

theorem units_triplet (ha : isHexDigit a = true) (hb : isHexDigit b = true) (s : Text) :
    units true ('%' :: a :: b :: s) = ['%', a, b] :: units true s := by
  rw [units, ha, hb]
  rfl

theorem units_single (h : (reserved && startsTriplet (c :: s)) = false) :
    units reserved (c :: s) = [c] :: units reserved s := by
  rw [units.eq_def reserved (c :: s)]
  split
  · rename_i a b rest heq
    obtain ⟨rfl, rfl⟩ := List.cons.inj heq
    have hdigits : (reserved && isHexDigit a && isHexDigit b) = false := by
      rw [Bool.and_assoc]
      exact h
    rw [hdigits]
    rfl
  · rename_i heq
    obtain ⟨rfl, rfl⟩ := List.cons.inj heq
    rfl
  · rename_i heq
    cases heq

theorem truncate_triplet (ha : isHexDigit a = true) (hb : isHexDigit b = true) (n : Nat)
    (s : Text) : truncate true (n + 1) ('%' :: a :: b :: s) = '%' :: a :: b :: truncate true n s := by
  have hstarts : (true && startsTriplet ('%' :: a :: b :: s)) = true :=
    startsTriplet_eq_true_iff.2 ⟨a, b, s, rfl, ha, hb⟩
  rw [truncate, if_pos hstarts]
  rfl

theorem truncate_single (h : (reserved && startsTriplet (c :: s)) = false) (n : Nat) :
    truncate reserved (n + 1) (c :: s) = c :: truncate reserved n s := by
  rw [truncate, h]
  rfl

theorem encode_triplet (ha : isHexDigit a = true) (hb : isHexDigit b = true) (s : Text) :
    encode true ('%' :: a :: b :: s) = '%' :: a :: b :: encode true s := by
  have hstarts : startsTriplet ('%' :: a :: b :: s) = true :=
    startsTriplet_eq_true_iff.2 ⟨a, b, s, rfl, ha, hb⟩
  have hhead : encodeHead true '%' (a :: b :: s) = ['%'] := by
    simp [encodeHead, hstarts]
  rw [encode, hhead, Uri.encode_hexDigit (isHexDigit_iff.1 ha),
    Uri.encode_hexDigit (isHexDigit_iff.1 hb)]
  rfl

/-- A character that is no triplet's is written without looking at what follows it. -/
theorem encode_single (h : (reserved && startsTriplet (c :: s)) = false) :
    encode reserved (c :: s) = encode reserved [c] ++ encode reserved s := by
  have halone := not_startsTriplet_of_front List.nil_prefix h
  have hhead : encodeHead reserved c s = encodeHead reserved c [] := by
    simp only [encodeHead, Bool.and_or_distrib_left, h, halone]
  simp only [encode, hhead, List.append_nil]

/-! ## All units -/

/-- The units divide the text. -/
theorem flatten_units (reserved : Bool) (s : Text) : (units reserved s).flatten = s := by
  induction s using unitInduction reserved with
  | nil => rfl
  | triplet a b s hreserved ha hb ih =>
    subst hreserved
    rw [units_triplet ha hb, List.flatten_cons, ih]
    rfl
  | single c s h ih =>
    rw [units_single h, List.flatten_cons, ih]
    rfl

theorem flatten_take_append_drop (reserved : Bool) (n : Nat) (s : Text) :
    ((units reserved s).take n).flatten ++ ((units reserved s).drop n).flatten = s := by
  rw [← List.flatten_append, List.take_append_drop, flatten_units]

/-- **A limit keeps the first units.** -/
theorem truncate_eq_flatten_take (reserved : Bool) (n : Nat) (s : Text) :
    truncate reserved n s = ((units reserved s).take n).flatten := by
  induction s using unitInduction reserved generalizing n with
  | nil => cases n <;> rfl
  | triplet a b s hreserved ha hb ih =>
    subst hreserved
    cases n with
    | zero => rfl
    | succ n =>
      rw [truncate_triplet ha hb, units_triplet ha hb, ih]
      rfl
  | single c s h ih =>
    cases n with
    | zero => cases s <;> rfl
    | succ n =>
      rw [truncate_single h, units_single h, ih]
      rfl

/-- What the first units make up has just these units. -/
theorem units_flatten_take (reserved : Bool) (n : Nat) (s : Text) :
    units reserved ((units reserved s).take n).flatten = (units reserved s).take n := by
  induction s using unitInduction reserved generalizing n with
  | nil => cases n <;> rfl
  | triplet a b s hreserved ha hb ih =>
    subst hreserved
    cases n with
    | zero => rfl
    | succ n =>
      rw [units_triplet ha hb, List.take_succ_cons, List.flatten_cons]
      exact (units_triplet ha hb _).trans (congrArg _ (ih n))
  | single c s h ih =>
    cases n with
    | zero => rfl
    | succ n =>
      have hkept : ((units reserved s).take n).flatten <+: s :=
        ⟨_, flatten_take_append_drop reserved n s⟩
      rw [units_single h, List.take_succ_cons, List.flatten_cons]
      exact (units_single (not_startsTriplet_of_front hkept h)).trans (congrArg _ (ih n))

/-- What the units behind a limit make up has just these units. -/
theorem units_flatten_drop (reserved : Bool) (n : Nat) (s : Text) :
    units reserved ((units reserved s).drop n).flatten = (units reserved s).drop n := by
  induction s using unitInduction reserved generalizing n with
  | nil => cases n <;> rfl
  | triplet a b s hreserved ha hb ih =>
    subst hreserved
    cases n with
    | zero => rw [List.drop_zero, flatten_units]
    | succ n =>
      rw [units_triplet ha hb, List.drop_succ_cons]
      exact ih n
  | single c s h ih =>
    cases n with
    | zero => rw [List.drop_zero, flatten_units]
    | succ n =>
      rw [units_single h, List.drop_succ_cons]
      exact ih n

/-- **A text is encoded unit by unit.** -/
theorem encode_eq_flatMap_units (reserved : Bool) (s : Text) :
    encode reserved s = (units reserved s).flatMap (encode reserved) := by
  induction s using unitInduction reserved with
  | nil => rfl
  | triplet a b s hreserved ha hb ih =>
    subst hreserved
    rw [encode_triplet ha hb, units_triplet ha hb, List.flatMap_cons, encode_triplet ha hb, ← ih]
    rfl
  | single c s h ih => rw [encode_single h, units_single h, List.flatMap_cons, ih]

/-! ## Cuts -/

/-- What is behind a limit is what the other units make up. -/
theorem eq_flatten_drop {rest : Text} {n : Nat} (h : s = truncate reserved n s ++ rest) :
    rest = ((units reserved s).drop n).flatten := by
  rw [truncate_eq_flatten_take] at h
  exact List.append_cancel_left (h.symm.trans (flatten_take_append_drop reserved n s).symm)

theorem truncate_isPrefix (reserved : Bool) (n : Nat) (s : Text) : truncate reserved n s <+: s := by
  rw [truncate_eq_flatten_take]
  exact ⟨_, flatten_take_append_drop reserved n s⟩

theorem units_truncate (reserved : Bool) (n : Nat) (s : Text) :
    units reserved (truncate reserved n s) = (units reserved s).take n := by
  rw [truncate_eq_flatten_take, units_flatten_take]

/-- A limit cuts between units. -/
theorem units_eq_append {rest : Text} {n : Nat} (h : s = truncate reserved n s ++ rest) :
    units reserved s = units reserved (truncate reserved n s) ++ units reserved rest := by
  rw [eq_flatten_drop h, units_flatten_drop, units_truncate, List.take_append_drop]

theorem encode_eq_append {rest : Text} {n : Nat} (h : s = truncate reserved n s ++ rest) :
    encode reserved s = encode reserved (truncate reserved n s) ++ encode reserved rest := by
  rw [encode_eq_flatMap_units reserved s, units_eq_append h, List.flatMap_append,
    ← encode_eq_flatMap_units, ← encode_eq_flatMap_units]

theorem truncate_truncate (reserved : Bool) (n m : Nat) (s : Text) :
    truncate reserved n (truncate reserved m s) = truncate reserved (min n m) s := by
  rw [truncate_eq_flatten_take, units_truncate, List.take_take, truncate_eq_flatten_take]

/-- A limit that no unit is beyond keeps the whole text. -/
theorem truncate_of_length_le {n : Nat} (h : (units reserved s).length ≤ n) :
    truncate reserved n s = s := by
  rw [truncate_eq_flatten_take, List.take_of_length_le h, flatten_units]

/-- The first part of a text is encoded as a first part of its encoding. -/
theorem encode_truncate_front (reserved : Bool) (n : Nat) (s : Text) :
    encode reserved (truncate reserved n s) <+: encode reserved s := by
  obtain ⟨rest, hrest⟩ := truncate_isPrefix reserved n s
  rw [encode_eq_append hrest.symm]
  exact List.prefix_append _ _

end UriTemplate.Percent
