import UriTemplate.Proofs.Except
import UriTemplate.Resolution

/-!
# What lists and maps hold

Besides null, a list may hold scalars of one family and a map scalars of any. The two loops that
read them pass over null and go from left to right, so they either write all scalars in their order
(`itemTexts_eq_ok_iff`, `entryTexts_eq_ok_iff`) or end at the leftmost offender: the first item that
is composite or of another family than the first scalar, the first entry that is composite
(`itemTexts_eq_error_iff`, `entryTexts_eq_error_iff`). What the loop over a list carries along is
the family that is expected of the scalars to come.
-/

namespace UriTemplate
set_option autoImplicit false

/-- A list, a map or a record. -/
def Value.IsComposite (value : Value) : Prop := value.form ∈ [.list, .map, .record]

/-- The items that are not null are these scalars, in this order. -/
def HoldsItems (items : List Value) (scalars : List Scalar) : Prop :=
  items.filter (fun item => !item.isNull) = scalars.map .scalar

/-- The entries that are not null are these keys with these scalars, in this order. -/
def HoldsEntries (entries : List (Text × Value)) (members : List (Text × Scalar)) : Prop :=
  entries.filter (fun e => !e.2.isNull) = members.map fun m => (m.1, .scalar m.2)

/-- Scalars that may stand in one list. -/
def OneFamily (scalars : List Scalar) : Prop := ∀ s ∈ scalars, ∀ s' ∈ scalars, s.family = s'.family

/-- An item that ends a list in which a family is expected, with the fault that it is. -/
inductive Offends (expected : Option Family) : Value → ShapeFault → Prop
  | composite {item : Value} : item.IsComposite → Offends expected item (.compositeItem item.form)
  | mixed {family : Family} {s : Scalar} : expected = some family → family ≠ s.family →
    Offends expected (.scalar s) (.mixedItems family s.family)

/-- The fault of the leftmost item that is composite or not of the first scalar's family. -/
def ItemFault (items : List Value) (fault : ShapeFault) : Prop :=
  ∃ front scalars item back, items = front ++ item :: back ∧ HoldsItems front scalars ∧
    OneFamily scalars ∧ Offends (scalars.head?.map Scalar.family) item fault

/-- The fault of the leftmost entry whose value is composite. -/
def EntryFault (entries : List (Text × Value)) (fault : ShapeFault) : Prop :=
  ∃ front key value back, entries = front ++ (key, value) :: back ∧
    (∀ e ∈ front, ¬e.2.IsComposite) ∧ value.IsComposite ∧ fault = .nestedEntry key value.form

theorem not_isComposite_null : ¬Value.IsComposite .null := by
  simp [Value.IsComposite, Value.form]

theorem not_isComposite_scalar {s : Scalar} : ¬Value.IsComposite (.scalar s) := by
  simp [Value.IsComposite, Value.form]

theorem null_or_scalar_or_composite (value : Value) :
    value = .null ∨ (∃ s, value = .scalar s) ∨ value.IsComposite := by
  cases value <;> simp [Value.IsComposite, Value.form]

/-! ## The family of a list -/

section Items

/-- The family that is expected behind some scalars: a given one, or else that of the first. -/
def expectedFamily (family : Option Family) (scalars : List Scalar) : Option Family :=
  family.or (scalars.head?.map Scalar.family)

/-- All scalars are of the family that is expected. -/
def Fits (family : Option Family) (scalars : List Scalar) : Prop :=
  ∀ s ∈ scalars, expectedFamily family scalars = some s.family

variable {family : Option Family} {s : Scalar} {item : Value} {items : List Value}
  {scalars : List Scalar} {texts : List Text} {fault : ShapeFault}

theorem fits_nil : Fits family [] := by
  simp [Fits]

theorem fits_cons : Fits family (s :: scalars) ↔
    family.getD s.family = s.family ∧ Fits (some s.family) scalars := by
  cases family with
  | none => simp [Fits, expectedFamily]
  | some f =>
    simp only [Fits, expectedFamily, Option.some_or, List.forall_mem_cons, Option.some.injEq,
      Option.getD_some]
    constructor <;> rintro ⟨rfl, h⟩ <;> exact ⟨rfl, h⟩

theorem fits_none_iff : Fits none scalars ↔ OneFamily scalars := by
  cases scalars with
  | nil => simp [Fits, OneFamily]
  | cons first scalars =>
    constructor
    · intro h s hs s' hs'
      exact Option.some.inj ((h s hs).symm.trans (h s' hs'))
    · intro h s hs
      exact congrArg some (h first List.mem_cons_self s hs)

theorem expectedFamily_cons (h : family.getD s.family = s.family) :
    expectedFamily family (s :: scalars) = some s.family := by
  cases family with
  | none => rfl
  | some f => exact congrArg some h

/-! ## Lists -/

theorem holdsItems_nil : HoldsItems [] scalars ↔ scalars = [] := by
  rw [HoldsItems, List.filter_nil, eq_comm, List.map_eq_nil_iff]

theorem holdsItems_scalar_cons : HoldsItems (.scalar s :: items) scalars ↔
    ∃ rest, scalars = s :: rest ∧ HoldsItems items rest := by
  constructor
  · intro h
    cases scalars with
    | nil => cases h
    | cons s' rest =>
      injection h with hs hrest
      exact ⟨rest, by rw [Value.scalar.inj hs], hrest⟩
  · rintro ⟨rest, rfl, hrest⟩
    exact congrArg (.scalar s :: ·) hrest

theorem not_holdsItems_of_isComposite (h : item.IsComposite) :
    ¬HoldsItems (item :: items) scalars := by
  cases item <;> cases scalars <;>
    simp_all [HoldsItems, Value.isNull, Value.IsComposite, Value.form]

theorem holdsItems_nil_iff : HoldsItems items [] ↔ ∀ item ∈ items, item = .null := by
  have hnull : ∀ item : Value, item.isNull = true ↔ item = .null := by
    intro item
    cases item <;> simp [Value.isNull]
  simp [HoldsItems, hnull]

theorem itemTexts_null_cons (family : Option Family) (items : List Value) :
    itemTexts family (.null :: items) = itemTexts family items := rfl

/-- A scalar is of the family that is expected, and sets it if there is none. -/
theorem itemTexts_scalar_cons (family : Option Family) (s : Scalar) (items : List Value) :
    itemTexts family (.scalar s :: items) =
      if family.getD s.family = s.family then
        (itemTexts (some s.family) items).map (s.canonical :: ·)
      else .error (.mixedItems (family.getD s.family) s.family) := by
  cases family with
  | none => simp [itemTexts]
  | some f =>
    by_cases h : f = s.family
    · subst h
      simp [itemTexts]
    · simp [itemTexts, h]

theorem itemTexts_of_isComposite (h : item.IsComposite) (family : Option Family)
    (items : List Value) :
    itemTexts family (item :: items) = .error (.compositeItem item.form) := by
  cases item <;> simp_all [Value.IsComposite, Value.form, itemTexts]

/-- The induction carries the family that the scalars in front have set. -/
theorem itemTexts_eq_ok_iff : itemTexts family items = .ok texts ↔
    ∃ scalars, HoldsItems items scalars ∧ Fits family scalars ∧
      texts = scalars.map Scalar.canonical := by
  induction items generalizing family texts with
  | nil => simp [itemTexts, holdsItems_nil, fits_nil, eq_comm]
  | cons item items ih =>
    rcases null_or_scalar_or_composite item with rfl | ⟨s, rfl⟩ | hitem
    · exact ih
    · rw [itemTexts_scalar_cons]
      constructor
      · intro h
        split at h
        · rename_i hfamily
          obtain ⟨rest, hrest, rfl⟩ := map_eq_ok_iff.1 h
          obtain ⟨scalars, hholds, hfits, rfl⟩ := ih.1 hrest
          exact ⟨s :: scalars, holdsItems_scalar_cons.2 ⟨scalars, rfl, hholds⟩,
            fits_cons.2 ⟨hfamily, hfits⟩, rfl⟩
        · cases h
      · rintro ⟨scalars, hholds, hfits, rfl⟩
        obtain ⟨rest, rfl, hrest⟩ := holdsItems_scalar_cons.1 hholds
        obtain ⟨hfamily, hfits'⟩ := fits_cons.1 hfits
        rw [if_pos hfamily]
        exact map_eq_ok_iff.2 ⟨_, ih.2 ⟨rest, hrest, hfits', rfl⟩, rfl⟩
    · rw [itemTexts_of_isComposite hitem]
      constructor
      · intro h
        cases h
      · rintro ⟨scalars, hholds, -⟩
        exact absurd hholds (not_holdsItems_of_isComposite hitem)

/-! ## The fault of a list -/

theorem not_offends_null : ¬Offends family .null fault := by
  rintro (h | _)
  exact not_isComposite_null h

theorem offends_scalar_iff : Offends family (.scalar s) fault ↔
    family.getD s.family ≠ s.family ∧ fault = .mixedItems (family.getD s.family) s.family := by
  constructor
  · intro h
    cases h with
    | composite hitem => exact absurd hitem not_isComposite_scalar
    | mixed hexpected hne =>
      subst hexpected
      exact ⟨hne, rfl⟩
  · rintro ⟨hne, rfl⟩
    cases family with
    | none => exact absurd rfl hne
    | some f => exact .mixed rfl hne

theorem offends_iff_of_isComposite (h : item.IsComposite) :
    Offends family item fault ↔ fault = .compositeItem item.form := by
  constructor
  · rintro (_ | _)
    · rfl
    · exact absurd h not_isComposite_scalar
  · rintro rfl
    exact .composite h

/-- The fault of the leftmost offender where a family is expected already. -/
def ItemFaultFrom (family : Option Family) (items : List Value) (fault : ShapeFault) : Prop :=
  ∃ front scalars item back, items = front ++ item :: back ∧ HoldsItems front scalars ∧
    Fits family scalars ∧ Offends (expectedFamily family scalars) item fault

theorem not_itemFaultFrom_nil : ¬ItemFaultFrom family [] fault := by
  rintro ⟨front, scalars, item, back, hitems, -⟩
  simp at hitems

/-- The leftmost offender is the first item, or the leftmost of the others if the first item is null
or a scalar of the family that is expected, which is the one expected from there on. -/
theorem itemFaultFrom_cons : ItemFaultFrom family (item :: items) fault ↔
    Offends family item fault ∨ (item = .null ∧ ItemFaultFrom family items fault) ∨
      ∃ s, item = .scalar s ∧ family.getD s.family = s.family ∧
        ItemFaultFrom (some s.family) items fault := by
  have hempty : expectedFamily family [] = family := by simp [expectedFamily]
  constructor
  · rintro ⟨front, scalars, item', back, hitems, hholds, hfits, hoffends⟩
    cases front with
    | nil =>
      obtain ⟨rfl, rfl⟩ := List.cons.inj hitems
      rw [holdsItems_nil.1 hholds, hempty] at hoffends
      exact .inl hoffends
    | cons first front =>
      obtain ⟨rfl, rfl⟩ := List.cons.inj hitems
      rcases null_or_scalar_or_composite item with rfl | ⟨s, rfl⟩ | hitem
      · exact .inr (.inl ⟨rfl, front, scalars, item', back, rfl, hholds, hfits, hoffends⟩)
      · obtain ⟨rest, rfl, hrest⟩ := holdsItems_scalar_cons.1 hholds
        obtain ⟨hfamily, hfits'⟩ := fits_cons.1 hfits
        rw [expectedFamily_cons hfamily] at hoffends
        exact .inr (.inr ⟨s, rfl, hfamily, front, rest, item', back, rfl, hrest, hfits', hoffends⟩)
      · exact absurd hholds (not_holdsItems_of_isComposite hitem)
  · rintro (hoffends | ⟨rfl, front, scalars, item', back, rfl, hholds, hfits, hoffends⟩ |
      ⟨s, rfl, hfamily, front, rest, item', back, rfl, hrest, hfits, hoffends⟩)
    · exact ⟨[], [], item, items, rfl, holdsItems_nil.2 rfl, fits_nil, hempty.symm ▸ hoffends⟩
    · exact ⟨.null :: front, scalars, item', back, rfl, hholds, hfits, hoffends⟩
    · refine ⟨.scalar s :: front, s :: rest, item', back, rfl,
        holdsItems_scalar_cons.2 ⟨rest, rfl, hrest⟩, fits_cons.2 ⟨hfamily, hfits⟩, ?_⟩
      rw [expectedFamily_cons hfamily]
      exact hoffends

theorem itemTexts_eq_error_iff : itemTexts family items = .error fault ↔
    ItemFaultFrom family items fault := by
  induction items generalizing family with
  | nil => simp [itemTexts, not_itemFaultFrom_nil]
  | cons item items ih =>
    rw [itemFaultFrom_cons]
    rcases null_or_scalar_or_composite item with rfl | ⟨s, rfl⟩ | hitem
    · rw [itemTexts_null_cons, ih]
      simp [not_offends_null]
    · rw [itemTexts_scalar_cons, offends_scalar_iff]
      by_cases hfamily : family.getD s.family = s.family
      · simp [hfamily, map_eq_error_iff, ih]
      · rw [if_neg hfamily, Except.error.injEq, eq_comm]
        simp [hfamily]
    · have hnull : item ≠ .null := by
        rintro rfl
        exact not_isComposite_null hitem
      have hscalar : ∀ s, item ≠ .scalar s := by
        rintro s rfl
        exact not_isComposite_scalar hitem
      rw [itemTexts_of_isComposite hitem, offends_iff_of_isComposite hitem, Except.error.injEq,
        eq_comm]
      simp [hnull, hscalar]

theorem itemFaultFrom_none_iff : ItemFaultFrom none items fault ↔ ItemFault items fault := by
  simp only [ItemFaultFrom, ItemFault, fits_none_iff, expectedFamily, Option.none_or]

end Items

/-! ## Maps and records -/

section Entries

variable {s : Scalar} {fault : ShapeFault} {key : Text} {value : Value}
  {entries : List (Text × Value)} {members : List (Text × Scalar)} {pairs : List (Text × Text)}

theorem holdsEntries_nil : HoldsEntries [] members ↔ members = [] := by
  rw [HoldsEntries, List.filter_nil, eq_comm, List.map_eq_nil_iff]

theorem holdsEntries_scalar_cons : HoldsEntries ((key, .scalar s) :: entries) members ↔
    ∃ rest, members = (key, s) :: rest ∧ HoldsEntries entries rest := by
  constructor
  · intro h
    cases members with
    | nil => cases h
    | cons m rest =>
      obtain ⟨key', s'⟩ := m
      injection h with hm hrest
      obtain ⟨rfl, hs⟩ := Prod.mk.inj hm
      exact ⟨rest, by rw [Value.scalar.inj hs], hrest⟩
  · rintro ⟨rest, rfl, hrest⟩
    exact congrArg ((key, .scalar s) :: ·) hrest

theorem not_holdsEntries_of_isComposite (h : value.IsComposite) :
    ¬HoldsEntries ((key, value) :: entries) members := by
  cases value <;> cases members <;>
    simp_all [HoldsEntries, Value.isNull, Value.IsComposite, Value.form]

theorem holdsEntries_nil_iff : HoldsEntries entries [] ↔ ∀ e ∈ entries, e.2 = .null := by
  have hnull : ∀ value : Value, value.isNull = true ↔ value = .null := by
    intro value
    cases value <;> simp [Value.isNull]
  simp [HoldsEntries, hnull]

theorem entryTexts_of_isComposite (h : value.IsComposite) (key : Text)
    (entries : List (Text × Value)) :
    entryTexts ((key, value) :: entries) = .error (.nestedEntry key value.form) := by
  cases value <;> simp_all [Value.IsComposite, Value.form, entryTexts]

theorem entryTexts_eq_ok_iff : entryTexts entries = .ok pairs ↔
    ∃ members, HoldsEntries entries members ∧
      pairs = members.map fun m => (m.1, m.2.canonical) := by
  induction entries generalizing pairs with
  | nil => simp [entryTexts, holdsEntries_nil, eq_comm]
  | cons e entries ih =>
    obtain ⟨key, value⟩ := e
    rcases null_or_scalar_or_composite value with rfl | ⟨s, rfl⟩ | hvalue
    · exact ih
    · rw [entryTexts, map_eq_ok_iff]
      constructor
      · rintro ⟨rest, hrest, rfl⟩
        obtain ⟨members, hholds, rfl⟩ := ih.1 hrest
        exact ⟨(key, s) :: members, holdsEntries_scalar_cons.2 ⟨members, rfl, hholds⟩, rfl⟩
      · rintro ⟨members, hholds, rfl⟩
        obtain ⟨rest, rfl, hrest⟩ := holdsEntries_scalar_cons.1 hholds
        exact ⟨_, ih.2 ⟨rest, hrest, rfl⟩, rfl⟩
    · rw [entryTexts_of_isComposite hvalue]
      constructor
      · intro h
        cases h
      · rintro ⟨members, hholds, -⟩
        exact absurd hholds (not_holdsEntries_of_isComposite hvalue)

theorem not_entryFault_nil : ¬EntryFault [] fault := by
  rintro ⟨front, key, value, back, hentries, -⟩
  simp at hentries

theorem entryFault_cons : EntryFault ((key, value) :: entries) fault ↔
    (value.IsComposite ∧ fault = .nestedEntry key value.form) ∨
      (¬value.IsComposite ∧ EntryFault entries fault) := by
  constructor
  · rintro ⟨front, key', value', back, hentries, hfront, hvalue, rfl⟩
    cases front with
    | nil =>
      obtain ⟨he, rfl⟩ := List.cons.inj hentries
      obtain ⟨rfl, rfl⟩ := Prod.mk.inj he
      exact .inl ⟨hvalue, rfl⟩
    | cons first front =>
      obtain ⟨rfl, rfl⟩ := List.cons.inj hentries
      obtain ⟨hfirst, hfront⟩ := List.forall_mem_cons.1 hfront
      exact .inr ⟨hfirst, front, key', value', back, rfl, hfront, hvalue, rfl⟩
  · rintro (⟨hvalue, rfl⟩ | ⟨hvalue, front, key', value', back, rfl, hfront, hvalue', rfl⟩)
    · exact ⟨[], key, value, entries, rfl, by simp, hvalue, rfl⟩
    · exact ⟨(key, value) :: front, key', value', back, rfl,
        List.forall_mem_cons.2 ⟨hvalue, hfront⟩, hvalue', rfl⟩

theorem entryTexts_eq_error_iff : entryTexts entries = .error fault ↔ EntryFault entries fault := by
  induction entries with
  | nil => simp [entryTexts, not_entryFault_nil]
  | cons e entries ih =>
    obtain ⟨key, value⟩ := e
    rw [entryFault_cons]
    rcases null_or_scalar_or_composite value with rfl | ⟨s, rfl⟩ | hvalue
    · show entryTexts entries = .error fault ↔ _
      rw [ih]
      simp [not_isComposite_null]
    · rw [entryTexts, map_eq_error_iff, ih]
      simp [not_isComposite_scalar]
    · rw [entryTexts_of_isComposite hvalue, Except.error.injEq, eq_comm]
      simp [hvalue]

end Entries

end UriTemplate
