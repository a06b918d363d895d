import UriTemplate.Proofs.Value.Settling

/-!
# Canonical values

The values that documents have: texts, truth values, words, finite floating-point numbers, lists,
and maps with distinct keys, at any depth. A number has one kind of word only, so words without sign
are kept for the numbers that no word with a sign can hold.
-/

namespace UriTemplate
set_option autoImplicit false

/-- Values without records and other scalars, whose maps have distinct keys at every depth. -/
inductive Value.Canonical : Value → Prop
  | null : Canonical .null
  | string (text : Text) : Canonical (.scalar (.string text))
  | bool (b : Bool) : Canonical (.scalar (.bool b))
  | int (n : Int64) : Canonical (.scalar (.int n))
  | uint {n : UInt64} : (IntegerType.signed 64).greatest < n.toNat → Canonical (.scalar (.uint n))
  | float {x : Binary .double} : x.isFinite = true → Canonical (.scalar (.float x))
  | list {items : List Value} : (∀ item ∈ items, Canonical item) → Canonical (.list items)
  | map {entries : List (Text × Value)} : (entries.map Prod.fst).Nodup →
      (∀ e ∈ entries, Canonical e.2) → Canonical (.map entries)

/-- What is kept of canonical values under their keys is canonical. -/
theorem Settles.canonical {written kept : List (Text × Value)} (h : Settles written kept)
    (hwritten : ∀ e ∈ written, e.2.Canonical) : (Value.map kept).Canonical :=
  .map h.distinct fun e he => hwritten e (h.subset he)

end UriTemplate
