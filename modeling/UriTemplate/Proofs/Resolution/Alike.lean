import UriTemplate.Proofs.Resolution.Records

/-!
# Values of the same texts

One number may be a word with a sign and a word without, and a text may come from a character.
Values are alike if they have the same structure and, at each place, scalars with the same text and
the same family. No name and no template tells such contexts apart (`interchangeable_of_alike`):
the shapes are the same and, since the forms and families are, so are the faults.
-/

namespace UriTemplate
set_option autoImplicit false

mutual

/-- Values with the same structure, keys, texts and families. -/
inductive Alike : Value → Value → Prop
  | null : Alike .null .null
  | scalar {s s' : Scalar} : s.canonical = s'.canonical → s.family = s'.family →
      Alike (.scalar s) (.scalar s')
  | list {items items' : List Value} : ItemsAlike items items' → Alike (.list items) (.list items')
  | map {entries entries' : List (Text × Value)} : EntriesAlike entries entries' →
      Alike (.map entries) (.map entries')

/-- Items that are alike one by one. -/
inductive ItemsAlike : List Value → List Value → Prop
  | nil : ItemsAlike [] []
  | cons {item item' : Value} {items items' : List Value} : Alike item item' →
      ItemsAlike items items' → ItemsAlike (item :: items) (item' :: items')

/-- Entries with the same keys, whose values are alike one by one. -/
inductive EntriesAlike : List (Text × Value) → List (Text × Value) → Prop
  | nil : EntriesAlike [] []
  | cons (key : Text) {value value' : Value} {entries entries' : List (Text × Value)} :
      Alike value value' → EntriesAlike entries entries' →
      EntriesAlike ((key, value) :: entries) ((key, value') :: entries')

end

variable {value value' : Value} {items items' : List Value} {entries entries' : List (Text × Value)}

/-! ## Shapes -/

/-- The family that is expected is the same in front of items that are alike, so the induction
leaves it open. -/
theorem ItemsAlike.itemTexts_eq (h : ItemsAlike items items') (family : Option Family) :
    itemTexts family items = itemTexts family items' := by
  induction items generalizing items' family with
  | nil =>
    cases h
    rfl
  | cons item items ih =>
    cases h with
    | cons hitem hitems =>
      cases hitem with
      | null => rw [itemTexts, itemTexts, ih hitems]
      | scalar htext hfamily =>
        cases family with
        | none => rw [itemTexts, itemTexts, htext, hfamily, ih hitems]
        | some expected => rw [itemTexts, itemTexts, htext, hfamily, ih hitems]
      | list => rfl
      | map => rfl

theorem EntriesAlike.entryTexts_eq (h : EntriesAlike entries entries') :
    entryTexts entries = entryTexts entries' := by
  induction entries generalizing entries' with
  | nil =>
    cases h
    rfl
  | cons e entries ih =>
    cases h with
    | cons key hvalue hentries =>
      cases hvalue with
      | null => rw [entryTexts, entryTexts, ih hentries]
      | scalar htext hfamily => rw [entryTexts, entryTexts, htext, ih hentries]
      | list => rfl
      | map => rfl

theorem Alike.shape_eq (h : Alike value value') : value.shape = value'.shape := by
  cases h with
  | null => rfl
  | scalar htext hfamily => rw [Value.shape, Value.shape, htext]
  | list hitems => rw [Value.shape, Value.shape, hitems.itemTexts_eq]
  | map hentries => rw [Value.shape, Value.shape, hentries.entryTexts_eq]

/-! ## Contexts -/

theorem EntriesAlike.lookup? (h : EntriesAlike entries entries') (name : Text) :
    Option.Rel Alike ((Value.map entries).lookup? name) ((Value.map entries').lookup? name) := by
  induction entries generalizing entries' with
  | nil =>
    cases h
    exact .none
  | cons e entries ih =>
    cases h with
    | cons key hvalue hentries =>
      rw [lookup?_map_cons, lookup?_map_cons]
      split
      · exact .some hvalue
      · exact ih hentries

theorem Alike.lookup? (h : Alike value value') (name : Text) :
    Option.Rel Alike (value.lookup? name) (value'.lookup? name) := by
  cases h with
  | map hentries => exact hentries.lookup? name
  | null => exact .none
  | scalar => exact .none
  | list => exact .none

/-- **Contexts that are alike can be interchanged.** -/
theorem interchangeable_of_alike (h : Alike value value') : Interchangeable value value' := by
  apply interchangeable_of_resolve
  intro name
  exact resolve_eq_of_rel (fun _ _ => Alike.shape_eq) (h.lookup? name)

end UriTemplate
