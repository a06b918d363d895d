import UriTemplate.Datum
import UriTemplate.Proofs.Number.Integers
import UriTemplate.Proofs.Resolution.Alike
import UriTemplate.Proofs.Value.Entries

/-!
# Two ways from host data to values

Host data become a value of a context part by part, each by its own conversion
(`HostDatum.toValue`), or as a whole, by what they say about themselves (`HostDatum.describe`) and
by way of JSON. On that way the types of integers are lost: a word without a sign comes out with one
if it fits. So the two values may differ, but they have the same texts (`exists_toJson_describe`).
-/

namespace UriTemplate
set_option autoImplicit false

/-- Data of a host program, with the types that its parts come in. -/
inductive HostDatum
  | nothing
  | string (text : Text)
  | char (value : Char)
  | bool (value : Bool)
  | signed (value : Int64)
  | unsigned (value : UInt64)
  | double (value : Binary .double) (finite : value.isFinite = true)
  | sequence (items : List HostDatum)
  | mapping (entries : List (Text × HostDatum))

namespace HostDatum

mutual

/-- The data as they describe themselves. -/
def describe : HostDatum → Datum
  | nothing => .absent
  | string s => .string s
  | char c => .char c
  | bool b => .bool b
  | signed n => .integer n.toInt
  | unsigned n => .integer n.toNat
  | double x _ => .double x
  | sequence items => .sequence (describeItems items)
  | mapping entries => .mapping (describeEntries entries)

/-- The items as they describe themselves. -/
def describeItems : List HostDatum → List Datum
  | [] => []
  | item :: items => item.describe :: describeItems items

/-- The entries as they describe themselves. -/
def describeEntries : List (Text × HostDatum) → List (Datum × Datum)
  | [] => []
  | (key, item) :: entries => (.string key, item.describe) :: describeEntries entries

end

mutual

/-- The value that is put together from the conversions of all parts. -/
def toValue : HostDatum → Value
  | nothing => .ofOption none
  | string s => .ofText s
  | char c => .ofText [c]
  | bool b => .scalar (.bool b)
  | signed n => .ofInteger (.signed 64) n.toInt
  | unsigned n => .ofInteger (.unsigned 64) n.toNat
  | double x _ => .scalar (.float x)
  | sequence items => .list (toItems items)
  | mapping entries => .map (toEntries entries)

/-- The values of items. -/
def toItems : List HostDatum → List Value
  | [] => []
  | item :: items => item.toValue :: toItems items

/-- The entries with the values of their data. -/
def toEntries : List (Text × HostDatum) → List (Text × Value)
  | [] => []
  | (key, item) :: entries => (key, item.toValue) :: toEntries entries

end

/-- No mapping repeats a key, at any depth. -/
inductive DistinctKeys : HostDatum → Prop
  | nothing : DistinctKeys .nothing
  | string (s : Text) : DistinctKeys (.string s)
  | char (c : Char) : DistinctKeys (.char c)
  | bool (b : Bool) : DistinctKeys (.bool b)
  | signed (n : Int64) : DistinctKeys (.signed n)
  | unsigned (n : UInt64) : DistinctKeys (.unsigned n)
  | double (x : Binary .double) (finite : x.isFinite = true) : DistinctKeys (.double x finite)
  | sequence {items : List HostDatum} : (∀ item ∈ items, DistinctKeys item) →
      DistinctKeys (.sequence items)
  | mapping {entries : List (Text × HostDatum)} : (entries.map Prod.fst).Nodup →
      (∀ e ∈ entries, DistinctKeys e.2) → DistinctKeys (.mapping entries)

attribute [simp] DistinctKeys.nothing DistinctKeys.string DistinctKeys.char DistinctKeys.bool
  DistinctKeys.signed DistinctKeys.unsigned DistinctKeys.double

@[simp] theorem distinctKeys_sequence_iff {items : List HostDatum} :
    (sequence items).DistinctKeys ↔ ∀ item ∈ items, item.DistinctKeys := by
  constructor
  · intro h
    cases h with
    | sequence hitems => exact hitems
  · exact .sequence

@[simp] theorem distinctKeys_mapping_iff {entries : List (Text × HostDatum)} :
    (mapping entries).DistinctKeys ↔
      (entries.map Prod.fst).Nodup ∧ ∀ e ∈ entries, e.2.DistinctKeys := by
  constructor
  · intro h
    cases h with
    | mapping hkeys hentries => exact ⟨hkeys, hentries⟩
  · rintro ⟨hkeys, hentries⟩
    exact .mapping hkeys hentries

end HostDatum

/-! ## Integers -/

theorem holds_toInt (n : Int64) : (IntegerType.signed 64).Holds n.toInt := by
  have hleast := n.le_toInt
  have hgreatest := n.toInt_lt
  rw [holds_int64_iff]
  omega

theorem holds_toNat (n : UInt64) : (IntegerType.unsigned 64).Holds n.toNat := by
  have hgreatest := n.toNat_lt
  rw [holds_uint64_iff]
  omega

/-- Two scalars that represent an integer have the same text and family. -/
theorem Represents.alike {s s' : Scalar} {n : Int} (h : Represents s n) (h' : Represents s' n) :
    Alike (.scalar s) (.scalar s') :=
  .scalar (h.1.trans h'.1.symm) (h.2.trans h'.2.symm)

theorem represents_natural {n : Int} (h : (IntegerType.unsigned 64).Holds n) :
    Represents (JsonNumber.natural (UInt64.ofNat n.toNat)).toScalar n := by
  have hnonneg : (n.toNat : Int) = n := Int.toNat_of_nonneg (holds_unsigned_iff.1 h).1
  have hword : ((UInt64.ofNat n.toNat).toNat : Int) = n := by
    rw [toNat_ofNat_of_holds h, hnonneg]
  rw [JsonNumber.toScalar, hword]
  split
  · rename_i hfits
    rw [UInt64.toInt64_ofNat', ← Int64.ofInt_eq_ofNat, hnonneg]
    exact represents_int hfits
  · exact represents_uint h

/-- **An integer of either type** is described by a number that represents it. -/
theorem exists_integerJson {n : Int}
    (h : (IntegerType.signed 64).Holds n ∨ (IntegerType.unsigned 64).Holds n) :
    ∃ x : JsonNumber, Datum.integerJson n = .ok (.number x) ∧ Represents x.toScalar n := by
  unfold Datum.integerJson JsonNumber.ofInteger?
  by_cases hnatural : (IntegerType.unsigned 64).Holds n
  · rw [if_pos hnatural]
    exact ⟨_, rfl, represents_natural hnatural⟩
  · have hword : (IntegerType.signed 64).Holds n := h.resolve_right hnatural
    rw [if_neg hnatural, if_pos hword]
    exact ⟨_, rfl, represents_int hword⟩

theorem exists_integerJson_alike {t : IntegerType} {n : Int} (h : t.Holds n)
    (hword : (IntegerType.signed 64).Holds n ∨ (IntegerType.unsigned 64).Holds n) :
    ∃ j, Datum.integerJson n = .ok j ∧ Alike j.toValue (.ofInteger t n) := by
  obtain ⟨x, hjson, hnumber⟩ := exists_integerJson hword
  obtain ⟨s, hs, hscalar⟩ := exists_scalar_ofInteger h
  refine ⟨.number x, hjson, ?_⟩
  rw [hs, Json.toValue]
  exact hnumber.alike hscalar

/-! ## Data of any depth -/

namespace HostDatum

mutual

/-- **What is described** has a JSON form, whose value is alike the one put together. -/
theorem exists_toJson_describe : ∀ d : HostDatum, d.DistinctKeys →
    ∃ j, d.describe.toJson = .ok j ∧ Alike j.toValue d.toValue
  | .nothing, _ => ⟨.null, rfl, .null⟩
  | .string s, _ => ⟨.string s, rfl, .scalar rfl rfl⟩
  | .char c, _ => ⟨.string [c], rfl, .scalar rfl rfl⟩
  | .bool b, _ => ⟨.bool b, rfl, .scalar rfl rfl⟩
  | .signed n, _ => exists_integerJson_alike (holds_toInt n) (.inl (holds_toInt n))
  | .unsigned n, _ => exists_integerJson_alike (holds_toNat n) (.inr (holds_toNat n))
  | .double x finite, _ => ⟨.number (.real x), congrArg Except.ok (if_pos finite), .scalar rfl rfl⟩
  | .sequence items, .sequence h => by
    obtain ⟨js, hjs, halike⟩ := exists_toItems_describe items h
    refine ⟨.array js, ?_, .list halike⟩
    rw [describe, Datum.toJson, hjs]
    rfl
  | .mapping entries, .mapping hkeys h => by
    obtain ⟨fields, hfields, hsame, halike⟩ := exists_toFields_describe entries h
    have hdistinct : distinctEntries fields = fields :=
      distinctEntries_of_nodup (hsame ▸ hkeys)
    refine ⟨.object fields, ?_, .map halike⟩
    rw [describe, Datum.toJson, hfields]
    exact congrArg (fun fields => Except.ok (Json.object fields)) hdistinct

theorem exists_toItems_describe : ∀ items : List HostDatum, (∀ item ∈ items, item.DistinctKeys) →
    ∃ js, Datum.toItems (describeItems items) = .ok js ∧
      ItemsAlike (Json.toValues js) (toItems items)
  | [], _ => ⟨[], rfl, .nil⟩
  | item :: items, h => by
    obtain ⟨hfirst, hrest⟩ := List.forall_mem_cons.1 h
    obtain ⟨j, hj, halike⟩ := exists_toJson_describe item hfirst
    obtain ⟨js, hjs, halikes⟩ := exists_toItems_describe items hrest
    refine ⟨j :: js, ?_, .cons halike halikes⟩
    rw [describeItems, Datum.toItems, hj, hjs]
    rfl

theorem exists_toFields_describe : ∀ entries : List (Text × HostDatum),
    (∀ e ∈ entries, e.2.DistinctKeys) →
    ∃ fields, Datum.toFields (describeEntries entries) = .ok fields ∧
      fields.map Prod.fst = entries.map Prod.fst ∧
      EntriesAlike (Json.toEntries fields) (toEntries entries)
  | [], _ => ⟨[], rfl, rfl, .nil⟩
  | (key, item) :: entries, h => by
    obtain ⟨hfirst, hrest⟩ := List.forall_mem_cons.1 h
    obtain ⟨j, hj, halike⟩ := exists_toJson_describe item hfirst
    obtain ⟨fields, hfields, hsame, halikes⟩ := exists_toFields_describe entries hrest
    refine ⟨(key, j) :: fields, ?_, congrArg (key :: ·) hsame, .cons key halike halikes⟩
    rw [describeEntries, Datum.toFields, hj, hfields]
    rfl

end

/-! ## Main statement -/

/-- **Host data without repeated keys describe themselves** as a value that can be interchanged with
the one put together from their parts: there is such a value, and no name and no template tells the
two apart. -/
theorem toValue_describe_interchangeable (d : HostDatum) (h : d.DistinctKeys) :
    ∃ v, d.describe.toValue = .ok v ∧ Interchangeable v d.toValue := by
  obtain ⟨j, hj, halike⟩ := exists_toJson_describe d h
  refine ⟨j.toValue, ?_, interchangeable_of_alike halike⟩
  rw [Datum.toValue, hj]
  rfl

/-- Words of both types in one list, one of which has no sign on the way by JSON; and a mapping with
a nested one, which is refused on both ways. -/
def searchParameters : HostDatum :=
  .mapping [("pages".toList, .sequence [.unsigned 7, .nothing, .signed (-7),
      .unsigned 18446744073709551615]),
    ("mark".toList, .char '+'), ("filter".toList, .mapping [("sort".toList, .mapping [])])]

theorem searchParameters_interchangeable :
    let t : Template := ⟨[.expression ⟨.query, [.withExplode (.plain "pages".toList),
      .plain "mark".toList]⟩]⟩
    ∃ v, searchParameters.describe.toValue = .ok v ∧
      t.expand v = .ok "?pages=7&pages=-7&pages=18446744073709551615&mark=%2B".toList ∧
      v.resolve "filter".toList = .error ⟨"filter".toList, .nestedEntry "sort".toList .map⟩ := by
  intro t
  have hdistinct : searchParameters.DistinctKeys := by
    simp [searchParameters]
  obtain ⟨v, hv, hresolve, hexpand⟩ := toValue_describe_interchangeable _ hdistinct
  refine ⟨v, hv, ?_, ?_⟩
  · rw [hexpand t]
    rfl
  · rw [hresolve]
    rfl

end HostDatum

end UriTemplate
