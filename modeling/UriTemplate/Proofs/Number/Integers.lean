import UriTemplate.Proofs.Resolution.Classification
import UriTemplate.Proofs.Text.Numeral

/-!
# Integers of every type

An integer comes in a type, which bounds it on either side, and becomes a word with or without a
sign, a decimal number, or a text. Whichever it is, its canonical text is the numeral of the integer,
so the type does not show (`exists_scalar_ofInteger`). What shows is the size: integers below `2 ^ 96`
are numbers and the others texts, and only one of the two kinds may stand in a list.
-/

namespace UriTemplate
set_option autoImplicit false

/-! ## Numerals of integers -/

/-- A text is the numeral of an integer: digits without a needless zero in front, with a minus sign
exactly for a negative integer. -/
def WritesInteger (n : Int) (text : Text) : Prop :=
  ∃ digits, IsNumeral digits ∧ digitsValue digits = n.natAbs ∧
    text = (if n < 0 then ['-'] else []) ++ digits

theorem integerNumeral_eq (n : Int) :
    integerNumeral n = (if n < 0 then ['-'] else []) ++ numeral n.natAbs := by
  cases n with
  | ofNat n =>
    have hnonneg : ¬Int.ofNat n < 0 := Int.not_lt.2 (Int.natCast_nonneg n)
    rw [if_neg hnonneg]
    rfl
  | negSucc n =>
    rw [if_pos (Int.negSucc_lt_zero n)]
    rfl

/-- **The numeral of an integer** is the one text that writes it. -/
theorem writesInteger_iff {n : Int} {text : Text} :
    WritesInteger n text ↔ text = integerNumeral n := by
  rw [integerNumeral_eq]
  constructor
  · rintro ⟨digits, hdigits, hvalue, rfl⟩
    rw [← hvalue, hdigits.numeral_digitsValue]
  · rintro rfl
    exact ⟨_, isNumeral_numeral _, digitsValue_numeral _, rfl⟩

/-- A minus sign is no digit, so a numeral shows the sign of its integer. -/
theorem head?_integerNumeral (n : Int) : (integerNumeral n).head? = some '-' ↔ n < 0 := by
  rw [integerNumeral_eq]
  by_cases hneg : n < 0
  · simp [hneg]
  · rw [if_neg hneg, List.nil_append, iff_false_right hneg]
    intro hhead
    have hdigit := isDigit_of_mem_numeral (List.mem_of_head? hhead)
    exact absurd hdigit (by decide)

theorem integerNumeral_inj {m n : Int} : integerNumeral m = integerNumeral n ↔ m = n := by
  constructor
  · intro h
    have hsign : m < 0 ↔ n < 0 := by
      rw [← head?_integerNumeral, ← head?_integerNumeral, h]
    have habs : m.natAbs = n.natAbs := by
      rw [integerNumeral_eq, integerNumeral_eq, if_congr hsign rfl rfl] at h
      have hdigits := congrArg digitsValue (List.append_cancel_left h)
      rwa [digitsValue_numeral, digitsValue_numeral] at hdigits
    omega
  · rintro rfl
    rfl

/-! ## Conversions -/

theorem twoPow_le_of_le {bits bits' : Nat} (h : bits ≤ bits') : twoPow bits ≤ twoPow bits' :=
  Nat.pow_le_pow_right (by omega) h

theorem holds_signed_iff {bits : Nat} {n : Int} : (IntegerType.signed bits).Holds n ↔
    -(twoPow (bits - 1) : Int) ≤ n ∧ n ≤ (twoPow (bits - 1) : Int) - 1 := Iff.rfl

theorem holds_unsigned_iff {bits : Nat} {n : Int} :
    (IntegerType.unsigned bits).Holds n ↔ 0 ≤ n ∧ n ≤ (twoPow bits : Int) - 1 := Iff.rfl

theorem holds_int64_iff {n : Int} : (IntegerType.signed 64).Holds n ↔
    -9223372036854775808 ≤ n ∧ n ≤ 9223372036854775807 := Iff.rfl

theorem holds_uint64_iff {n : Int} :
    (IntegerType.unsigned 64).Holds n ↔ 0 ≤ n ∧ n ≤ 18446744073709551615 := Iff.rfl

/-- A type of at most 64 bits has only integers that fit into a word. -/
theorem holds_int64_of_signed {bits : Nat} {n : Int} (hbits : bits ≤ 64)
    (h : (IntegerType.signed bits).Holds n) : (IntegerType.signed 64).Holds n := by
  have hle : twoPow (bits - 1) ≤ twoPow (64 - 1) := twoPow_le_of_le (by omega)
  rw [holds_signed_iff] at h ⊢
  omega

theorem holds_uint64_of_unsigned {bits : Nat} {n : Int} (hbits : bits ≤ 64)
    (h : (IntegerType.unsigned bits).Holds n) : (IntegerType.unsigned 64).Holds n := by
  have hle : twoPow bits ≤ twoPow 64 := twoPow_le_of_le hbits
  rw [holds_unsigned_iff] at h ⊢
  omega

theorem toInt_ofInt_of_holds {n : Int} (h : (IntegerType.signed 64).Holds n) :
    (Int64.ofInt n).toInt = n := by
  rw [holds_int64_iff] at h
  apply Int64.toInt_ofInt_of_le
  · omega
  · omega

theorem toNat_ofNat_of_holds {n : Int} (h : (IntegerType.unsigned 64).Holds n) :
    (UInt64.ofNat n.toNat).toNat = n.toNat := by
  rw [holds_uint64_iff] at h
  rw [UInt64.toNat_ofNat']
  omega

/-! ## Scalars -/

/-- Whether an integer is small enough to be a number. -/
def IsNumberSized (n : Int) : Prop := n.natAbs < twoPow 96

instance (n : Int) : Decidable (IsNumberSized n) := by
  unfold IsNumberSized
  infer_instance

theorem isNumberSized_iff {n : Int} :
    IsNumberSized n ↔ n.natAbs < 79228162514264337593543950336 := Iff.rfl

/-- What becomes of an integer: a scalar with its numeral, in the family that its size asks for. -/
def Represents (s : Scalar) (n : Int) : Prop :=
  s.canonical = integerNumeral n ∧ s.family = if IsNumberSized n then .number else .text

theorem represents_int {n : Int} (h : (IntegerType.signed 64).Holds n) :
    Represents (.int (Int64.ofInt n)) n := by
  have hsize : IsNumberSized n := by
    rw [holds_int64_iff] at h
    rw [isNumberSized_iff]
    omega
  refine ⟨?_, (if_pos hsize).symm⟩
  show integerNumeral (Int64.ofInt n).toInt = integerNumeral n
  rw [toInt_ofInt_of_holds h]

theorem represents_uint {n : Int} (h : (IntegerType.unsigned 64).Holds n) :
    Represents (.uint (UInt64.ofNat n.toNat)) n := by
  have hnonneg : 0 ≤ n := (holds_unsigned_iff.1 h).1
  have hsize : IsNumberSized n := by
    rw [holds_uint64_iff] at h
    rw [isNumberSized_iff]
    omega
  refine ⟨?_, (if_pos hsize).symm⟩
  show numeral (UInt64.ofNat n.toNat).toNat = integerNumeral n
  rw [toNat_ofNat_of_holds h, integerNumeral_eq, if_neg (by omega), List.nil_append]
  congr 1
  omega

/-- Without digits behind the point there are no zeros to drop there. -/
theorem normalize_of_scale_eq_zero {d : Decimal} (h : d.scale = 0) : d.normalize = d := by
  obtain ⟨mantissa, scale, hmantissa, hscale⟩ := d
  subst h
  have hsign : mantissa.sign * (mantissa.natAbs : Int) = mantissa := Int.sign_mul_natAbs mantissa
  simp only [Decimal.normalize, Decimal.dropZeros, hsign]

theorem represents_decimal {n : Int} {d : Decimal} (h : Decimal.ofScaled? n 0 = some d) :
    Represents (.decimal d) n := by
  unfold Decimal.ofScaled? at h
  split at h
  · rename_i hsize
    cases h
    refine ⟨?_, (if_pos hsize.1).symm⟩
    show (Decimal.normalize _).toText = integerNumeral n
    rw [normalize_of_scale_eq_zero rfl, integerNumeral_eq]
    rfl
  · cases h

theorem represents_string {n : Int} (h : Decimal.ofScaled? n 0 = none) :
    Represents (.string (integerNumeral n)) n := by
  refine ⟨rfl, (if_neg fun hsize => ?_).symm⟩
  unfold Decimal.ofScaled? at h
  rw [dif_pos ⟨hsize, Nat.zero_le 28⟩] at h
  cases h

theorem exists_scalar_ofWideInteger (n : Int) :
    ∃ s, Value.ofWideInteger n = .scalar s ∧ Represents s n := by
  unfold Value.ofWideInteger
  split
  · rename_i hword
    exact ⟨_, rfl, represents_int hword⟩
  · cases hdecimal : Decimal.ofScaled? n 0 with
    | some d => exact ⟨_, rfl, represents_decimal hdecimal⟩
    | none => exact ⟨_, rfl, represents_string hdecimal⟩

/-- **Every conversion** keeps the integer. -/
theorem exists_scalar_ofInteger {t : IntegerType} {n : Int} (h : t.Holds n) :
    ∃ s, Value.ofInteger t n = .scalar s ∧ Represents s n := by
  cases t with
  | signed bits =>
    by_cases hbits : bits ≤ 64
    · rw [Value.ofInteger, if_pos hbits]
      exact ⟨_, rfl, represents_int (holds_int64_of_signed hbits h)⟩
    · rw [Value.ofInteger, if_neg hbits]
      exact exists_scalar_ofWideInteger n
  | unsigned bits =>
    by_cases hfits : bits ≤ 64 ∨ (IntegerType.unsigned 64).Holds n
    · have hword : (IntegerType.unsigned 64).Holds n :=
        hfits.elim (fun hbits => holds_uint64_of_unsigned hbits h) id
      rw [Value.ofInteger, if_pos hfits]
      exact ⟨_, rfl, represents_uint hword⟩
    · rw [Value.ofInteger, if_neg hfits]
      exact exists_scalar_ofWideInteger n

/-! ## Lists -/

theorem holdsItems_map_scalar_iff {scalars scalars' : List Scalar} :
    HoldsItems (scalars.map .scalar) scalars' ↔ scalars' = scalars := by
  have hnotNull : (scalars.map Value.scalar).filter (fun item => !item.isNull) =
      scalars.map .scalar := by
    rw [List.filter_eq_self]
    intro item hitem
    obtain ⟨s, -, rfl⟩ := List.mem_map.1 hitem
    rfl
  rw [HoldsItems, hnotNull]
  constructor
  · intro h
    exact (List.map_injective_iff.2 (fun _ _ => Value.scalar.inj) h).symm
  · rintro rfl
    rfl

/-- An integer with the type that it comes in. -/
structure TypedInteger where
  type : IntegerType
  value : Int
  holds : type.Holds value

namespace TypedInteger

/-- The value of a context. -/
def toValue (n : TypedInteger) : Value := .ofInteger n.type n.value

theorem exists_scalar (n : TypedInteger) : ∃ s, n.toValue = .scalar s ∧ Represents s n.value :=
  exists_scalar_ofInteger n.holds

/-- A list of integers is a list of scalars, with the numerals and the families of the integers. -/
theorem exists_scalars (members : List TypedInteger) : ∃ scalars : List Scalar,
    members.map toValue = scalars.map .scalar ∧
      scalars.map Scalar.canonical = members.map (fun n => integerNumeral n.value) ∧
      scalars.map Scalar.family =
        members.map fun n => if IsNumberSized n.value then .number else .text := by
  induction members with
  | nil => exact ⟨[], rfl, rfl, rfl⟩
  | cons n members ih =>
    obtain ⟨s, hs, htext, hfamily⟩ := n.exists_scalar
    obtain ⟨scalars, hscalars, htexts, hfamilies⟩ := ih
    refine ⟨s :: scalars, ?_, ?_, ?_⟩
    · rw [List.map_cons, hs, hscalars, List.map_cons]
    · rw [List.map_cons, htext, htexts, List.map_cons]
    · rw [List.map_cons, hfamily, hfamilies, List.map_cons]

/-- All of some integers are numbers, or all of them are texts. -/
def OneKind (members : List TypedInteger) : Prop :=
  (∀ n ∈ members, IsNumberSized n.value) ∨ ∀ n ∈ members, ¬IsNumberSized n.value

theorem oneFamily_iff {members : List TypedInteger} {scalars : List Scalar}
    (h : scalars.map Scalar.family =
      members.map fun n => if IsNumberSized n.value then .number else .text) :
    OneFamily scalars ↔ OneKind members := by
  have hfamilies : OneFamily scalars ↔
      ∀ f ∈ scalars.map Scalar.family, ∀ f' ∈ scalars.map Scalar.family, f = f' := by
    simp only [OneFamily, List.forall_mem_map]
  rw [hfamilies, h]
  simp only [List.forall_mem_map]
  constructor
  · intro hsame
    by_cases hall : ∀ n ∈ members, IsNumberSized n.value
    · exact .inl hall
    · obtain ⟨m, hm, hlarge⟩ : ∃ m ∈ members, ¬IsNumberSized m.value := by
        simpa using hall
      refine .inr fun n hn hsmall => ?_
      have hmn := hsame m hm n hn
      rw [if_neg hlarge, if_pos hsmall] at hmn
      cases hmn
  · rintro (hall | hnone) m hm n hn
    · rw [if_pos (hall m hm), if_pos (hall n hn)]
    · rw [if_neg (hnone m hm), if_neg (hnone n hn)]

variable {members : List TypedInteger} {context : Value} {name : Text}

theorem shape_of_oneKind (hne : members ≠ []) (h : OneKind members) :
    (Value.list (members.map toValue)).shape =
      .ok (.list (members.map fun n => integerNumeral n.value)) := by
  obtain ⟨scalars, hscalars, htexts, hfamilies⟩ := exists_scalars members
  have hholds : HoldsItems (members.map toValue) scalars := by
    rw [hscalars]
    exact holdsItems_map_scalar_iff.2 rfl
  have hnil : scalars ≠ [] := by
    rintro rfl
    exact hne (List.map_eq_nil_iff.1 htexts.symm)
  exact shape_eq_list_iff.2
    ⟨_, scalars, rfl, hholds, (oneFamily_iff hfamilies).2 h, hnil, htexts.symm⟩

theorem shape_of_not_oneKind (h : ¬OneKind members) :
    ∃ expected found, expected ≠ found ∧
      (Value.list (members.map toValue)).shape = .error (.mixedItems expected found) := by
  obtain ⟨scalars, hscalars, -, hfamilies⟩ := exists_scalars members
  rw [hscalars]
  cases hshape : (Value.list (scalars.map .scalar)).shape with
  | ok shape =>
    obtain ⟨scalars', hholds, hfamily, -⟩ := shape_list_eq_ok_iff.1 hshape
    rw [holdsItems_map_scalar_iff.1 hholds] at hfamily
    exact absurd ((oneFamily_iff hfamilies).1 hfamily) h
  | error fault =>
    obtain ⟨front, _, item, back, hitems, -, -, hoffends⟩ := shape_list_eq_error_iff.1 hshape
    cases hoffends with
    | composite hitem =>
      have hmem : item ∈ scalars.map Value.scalar := by
        rw [hitems]
        exact List.mem_append_right _ List.mem_cons_self
      obtain ⟨s, -, rfl⟩ := List.mem_map.1 hmem
      exact absurd hitem not_isComposite_scalar
    | mixed hexpected hne => exact ⟨_, _, hne, rfl⟩

/-! ## Main statement -/

/-- **Integers are written alike in every type.** The canonical text is the numeral, whatever the
integer came in and became, so two integers have the same text exactly if they are equal. The family
tells integers below `2 ^ 96` from the others, and a list of integers has texts exactly if all of
them are on one side; a list with both kinds is refused. -/
theorem numeral_and_family :
    (∀ n : TypedInteger, ∃ s, n.toValue = .scalar s ∧
      (∀ text, WritesInteger n.value text ↔ text = s.canonical) ∧
      s.family = if n.value.natAbs < twoPow 96 then .number else .text) ∧
    (∀ m n : TypedInteger, m.toValue.shape = n.toValue.shape ↔ m.value = n.value) ∧
    ∀ members : List TypedInteger, members ≠ [] → ∀ context name,
      Finds context name (some (.list (members.map toValue))) →
        ((∃ texts, context.resolve name = .ok (.list texts)) ↔ OneKind members) ∧
        (OneKind members → context.resolve name =
          .ok (.list (members.map fun n => integerNumeral n.value))) ∧
        (¬OneKind members → ∃ expected found, expected ≠ found ∧
          context.resolve name = .error ⟨name, .mixedItems expected found⟩) := by
  refine ⟨fun n => ?_, fun m n => ?_, fun members hne context name hfinds => ?_⟩
  · obtain ⟨s, hs, htext, hfamily⟩ := n.exists_scalar
    refine ⟨s, hs, fun text => ?_, hfamily⟩
    rw [writesInteger_iff, htext]
  · obtain ⟨s, hs, htext, -⟩ := m.exists_scalar
    obtain ⟨s', hs', htext', -⟩ := n.exists_scalar
    rw [hs, hs']
    show Except.ok (Shape.scalar s.canonical) = .ok (.scalar s'.canonical) ↔ _
    rw [htext, htext', Except.ok.injEq, Shape.scalar.injEq, integerNumeral_inj]
  · have hlookup := finds_iff.1 hfinds
    have htexts (h : OneKind members) := (resolve_eq_ok_iff hlookup).2 (shape_of_oneKind hne h)
    have hfault (h : ¬OneKind members) : ∃ expected found, expected ≠ found ∧
        context.resolve name = .error ⟨name, .mixedItems expected found⟩ := by
      obtain ⟨expected, found, hdiffer, hshape⟩ := shape_of_not_oneKind h
      exact ⟨expected, found, hdiffer, (resolve_eq_error_iff hlookup).2 ⟨rfl, hshape⟩⟩
    refine ⟨⟨fun ⟨texts, hresolve⟩ => ?_, fun h => ⟨_, htexts h⟩⟩, htexts, hfault⟩
    by_contra h
    obtain ⟨_, _, -, herror⟩ := hfault h
    rw [hresolve] at herror
    cases herror

/-- The greatest and the least integer of 128 bits, which are both texts, and a list in which the
greatest one follows a number of 8 bits. -/
theorem widest_integers :
    let greatest : TypedInteger := ⟨.unsigned 128, 340282366920938463463374607431768211455, by decide⟩
    let least : TypedInteger := ⟨.signed 128, -170141183460469231731687303715884105728, by decide⟩
    let small : TypedInteger := ⟨.signed 8, -128, by decide⟩
    let context : Value := .map [("wide".toList, .list ([greatest, least].map toValue)),
      ("mixed".toList, .list ([small, greatest].map toValue))]
    context.resolve "wide".toList = .ok (.list
      ["340282366920938463463374607431768211455".toList,
        "-170141183460469231731687303715884105728".toList]) ∧
      ∃ e, context.resolve "mixed".toList = .error e := by
  intro greatest least small context
  have hwide : Finds context "wide".toList (some (.list ([greatest, least].map toValue))) :=
    finds_iff.2 rfl
  have hmixed : Finds context "mixed".toList (some (.list ([small, greatest].map toValue))) :=
    finds_iff.2 rfl
  have hlarge : OneKind [greatest, least] := .inr (by decide)
  have hboth : ¬OneKind [small, greatest] := by
    unfold OneKind
    decide
  obtain ⟨-, -, hlist⟩ := numeral_and_family
  obtain ⟨-, hresolve, -⟩ := hlist _ (by simp) _ _ hwide
  obtain ⟨-, -, hrefused⟩ := hlist _ (by simp) _ _ hmixed
  obtain ⟨_, _, -, herror⟩ := hrefused hboth
  exact ⟨hresolve hlarge, _, herror⟩

end TypedInteger

end UriTemplate
