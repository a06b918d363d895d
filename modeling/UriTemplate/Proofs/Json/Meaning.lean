import UriTemplate.Json.Basic
import UriTemplate.Proofs.Value.Canonical

/-!
# What documents mean

A document is a JSON value as it is written, with every field of its objects in order, also those
whose keys are repeated. It means a value of a context in which each object, at any depth, keeps the
first place and the last value of a key (`Json.Means`). That is what becomes of it if the fields are
settled first and the values made of them then (`means_settle`), and if its numbers are finite, the
value is canonical.
-/

namespace UriTemplate
set_option autoImplicit false

mutual

/-- The value that a document means. -/
inductive Json.Means : Json → Value → Prop
  | null : Json.Means .null .null
  | bool (b : Bool) : Json.Means (.bool b) (.scalar (.bool b))
  | number (n : JsonNumber) : Json.Means (.number n) (.scalar n.toScalar)
  | string (s : Text) : Json.Means (.string s) (.ofText s)
  | array {items : List Json} {values : List Value} : ItemsMean items values →
      Json.Means (.array items) (.list values)
  | object {fields : List (Text × Json)} {written entries : List (Text × Value)} :
      FieldsMean fields written → Settles written entries → Json.Means (.object fields) (.map entries)

/-- The values that items mean. -/
inductive ItemsMean : List Json → List Value → Prop
  | nil : ItemsMean [] []
  | cons {item : Json} {items : List Json} {value : Value} {values : List Value} :
      item.Means value → ItemsMean items values → ItemsMean (item :: items) (value :: values)

/-- The entries that fields mean, one for each field. -/
inductive FieldsMean : List (Text × Json) → List (Text × Value) → Prop
  | nil : FieldsMean [] []
  | cons {key : Text} {item : Json} {fields : List (Text × Json)} {value : Value}
      {entries : List (Text × Value)} : item.Means value → FieldsMean fields entries →
      FieldsMean ((key, item) :: fields) ((key, value) :: entries)

end

namespace Json

mutual

/-- The document with distinct keys in each object: of repeated ones the first place and the last
value. -/
def settle : Json → Json
  | null => null
  | bool b => bool b
  | number n => number n
  | string s => string s
  | array items => array (settleItems items)
  | object fields => object (distinctEntries (settleFields fields))

/-- The items, each with distinct keys in its objects. -/
def settleItems : List Json → List Json
  | [] => []
  | item :: items => item.settle :: settleItems items

/-- The fields, each with distinct keys in the objects of its value. -/
def settleFields : List (Text × Json) → List (Text × Json)
  | [] => []
  | (key, item) :: fields => (key, item.settle) :: settleFields fields

end

theorem settleItems_eq_map (items : List Json) : settleItems items = items.map settle := by
  induction items with
  | nil => rfl
  | cons item items ih => rw [settleItems, ih, List.map_cons]

theorem settleFields_eq_map (fields : List (Text × Json)) :
    settleFields fields = fields.map fun f => (f.1, f.2.settle) := by
  induction fields with
  | nil => rfl
  | cons f fields ih => rw [settleFields, ih, List.map_cons]

theorem toEntries_eq_map (fields : List (Text × Json)) :
    toEntries fields = fields.map fun f => (f.1, f.2.toValue) := by
  induction fields with
  | nil => rfl
  | cons f fields ih => rw [toEntries, ih, List.map_cons]

theorem settles_toEntries (fields : List (Text × Json)) :
    Settles (toEntries fields) (toEntries (distinctEntries fields)) := by
  rw [toEntries_eq_map, toEntries_eq_map]
  exact (settles_distinctEntries fields).map toValue

end Json

mutual

/-- **Settling a document gives its meaning.** -/
theorem means_settle : ∀ j : Json, j.Means j.settle.toValue
  | .null => .null
  | .bool b => .bool b
  | .number n => .number n
  | .string s => .string s
  | .array items => .array (itemsMean_settle items)
  | .object fields =>
    .object (fieldsMean_settle fields) (Json.settles_toEntries (Json.settleFields fields))

theorem itemsMean_settle : ∀ items, ItemsMean items (Json.toValues (Json.settleItems items))
  | [] => .nil
  | item :: items => .cons (means_settle item) (itemsMean_settle items)

theorem fieldsMean_settle : ∀ fields, FieldsMean fields (Json.toEntries (Json.settleFields fields))
  | [] => .nil
  | (_, item) :: fields => .cons (means_settle item) (fieldsMean_settle fields)

end

/-! ## Finite numbers -/

/-- Whether a number is finite, as words are. -/
def JsonNumber.IsFinite : JsonNumber → Prop
  | natural _ | negative _ => True
  | real x => x.isFinite = true

/-- All numbers of a document are finite. -/
inductive Json.Finite : Json → Prop
  | null : Finite .null
  | bool (b : Bool) : Finite (.bool b)
  | number {n : JsonNumber} : n.IsFinite → Finite (.number n)
  | string (s : Text) : Finite (.string s)
  | array {items : List Json} : (∀ item ∈ items, Finite item) → Finite (.array items)
  | object {fields : List (Text × Json)} : (∀ f ∈ fields, Finite f.2) → Finite (.object fields)

/-- A natural number has a sign if it fits. -/
theorem canonical_toScalar {n : JsonNumber} (h : n.IsFinite) :
    (Value.scalar n.toScalar).Canonical := by
  cases n with
  | natural n =>
    by_cases hfits : (IntegerType.signed 64).Holds n.toNat
    · rw [JsonNumber.toScalar, if_pos hfits]
      exact .int _
    · have hleast : (IntegerType.signed 64).least ≤ n.toNat := by
        have hnonpos : (IntegerType.signed 64).least ≤ 0 := by decide
        omega
      rw [JsonNumber.toScalar, if_neg hfits]
      exact .uint (Int.lt_of_not_ge fun hgreatest => hfits ⟨hleast, hgreatest⟩)
  | negative n => exact .int n
  | real x => exact .float h

mutual

theorem Json.Means.canonical {j : Json} {v : Value} : j.Means v → j.Finite → v.Canonical
  | .null, _ => .null
  | .bool b, _ => .bool b
  | .number _, .number h => canonical_toScalar h
  | .string s, _ => .string s
  | .array hitems, .array h => .list (hitems.canonical h)
  | .object hfields hsettles, .object h => hsettles.canonical (hfields.canonical h)

theorem ItemsMean.canonical {items : List Json} {values : List Value} :
    ItemsMean items values → (∀ item ∈ items, item.Finite) → ∀ v ∈ values, v.Canonical
  | .nil, _ => List.forall_mem_nil _
  | .cons hitem hitems, h =>
    have ⟨hfirst, hrest⟩ := List.forall_mem_cons.1 h
    List.forall_mem_cons.2 ⟨hitem.canonical hfirst, hitems.canonical hrest⟩

theorem FieldsMean.canonical {fields : List (Text × Json)} {entries : List (Text × Value)} :
    FieldsMean fields entries → (∀ f ∈ fields, f.2.Finite) → ∀ e ∈ entries, e.2.Canonical
  | .nil, _ => List.forall_mem_nil _
  | .cons hitem hfields, h =>
    have ⟨hfirst, hrest⟩ := List.forall_mem_cons.1 h
    List.forall_mem_cons.2 ⟨hitem.canonical hfirst, hfields.canonical hrest⟩

end

end UriTemplate
