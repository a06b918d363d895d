import UriTemplate.Proofs.Resolution.Lookup
import UriTemplate.Proofs.Resolution.Members

/-!
# Which values have which shape

A context finds at most one value for a name (`Finds`), and what that value holds besides null
decides its shape: a list has one if these items are scalars of one family, a map or a record if
these entries are scalars, and without any of them the variable is undefined. A value without a
shape has the fault of its leftmost offender. `resolve_classifies` says so for each of the shapes
and for the errors, which together are all answers.
-/

namespace UriTemplate
set_option autoImplicit false

/-- What a context has for a name: the value of the first entry with this name in a map, and the
property of a record. Null, scalars and lists have nothing. -/
inductive Finds : Value → Text → Option Value → Prop
  | entry {front back : List (Text × Value)} {name : Text} {value : Value} :
    (∀ e ∈ front, e.1 ≠ name) → Finds (.map (front ++ (name, value) :: back)) name (some value)
  | noEntry {entries : List (Text × Value)} {name : Text} :
    (∀ e ∈ entries, e.1 ≠ name) → Finds (.map entries) name none
  | property (names : List Text) (property? : Text → Option Value) (name : Text) :
    Finds (.record names property?) name (property? name)
  | noNames {context : Value} (name : Text) :
    context.form ∈ [.null, .scalar, .list] → Finds context name none

/-- The entries of a map; of a record, the names that it lists and answers for, in their order. -/
def Value.members? : Value → Option (List (Text × Value))
  | .map entries => some entries
  | .record names property? =>
    some (names.filterMap fun name => (property? name).map fun value => (name, value))
  | _ => none

/-! ## Shapes -/

section Shapes

variable {context value : Value} {name text : Text} {items : List Value} {texts : List Text}
  {entries : List (Text × Value)} {pairs : List (Text × Text)} {shape : Shape} {fault : ShapeFault}

theorem shape_list_eq_ok_iff : (Value.list items).shape = .ok shape ↔
    ∃ scalars, HoldsItems items scalars ∧ OneFamily scalars ∧
      shape = .ofItems (scalars.map Scalar.canonical) := by
  show (itemTexts none items).map Shape.ofItems = .ok shape ↔ _
  rw [map_eq_ok_iff]
  constructor
  · rintro ⟨texts, htexts, rfl⟩
    obtain ⟨scalars, hholds, hfits, rfl⟩ := itemTexts_eq_ok_iff.1 htexts
    exact ⟨scalars, hholds, fits_none_iff.1 hfits, rfl⟩
  · rintro ⟨scalars, hholds, hfamily, rfl⟩
    exact ⟨_, itemTexts_eq_ok_iff.2 ⟨scalars, hholds, fits_none_iff.2 hfamily, rfl⟩, rfl⟩

theorem shape_list_eq_error_iff :
    (Value.list items).shape = .error fault ↔ ItemFault items fault := by
  show (itemTexts none items).map Shape.ofItems = .error fault ↔ _
  rw [map_eq_error_iff, itemTexts_eq_error_iff, itemFaultFrom_none_iff]

theorem shape_of_members? (h : value.members? = some entries) :
    value.shape = (entryTexts entries).map Shape.ofEntries := by
  cases value <;> cases h <;> rfl

theorem shape_members_eq_ok_iff (h : value.members? = some entries) : value.shape = .ok shape ↔
    ∃ members, HoldsEntries entries members ∧
      shape = .ofEntries (members.map fun m => (m.1, m.2.canonical)) := by
  rw [shape_of_members? h, map_eq_ok_iff]
  constructor
  · rintro ⟨pairs, hpairs, rfl⟩
    obtain ⟨members, hholds, rfl⟩ := entryTexts_eq_ok_iff.1 hpairs
    exact ⟨members, hholds, rfl⟩
  · rintro ⟨members, hholds, rfl⟩
    exact ⟨_, entryTexts_eq_ok_iff.2 ⟨members, hholds, rfl⟩, rfl⟩

theorem shape_members_eq_error_iff (h : value.members? = some entries) :
    value.shape = .error fault ↔ EntryFault entries fault := by
  rw [shape_of_members? h, map_eq_error_iff, entryTexts_eq_error_iff]

/-- The four kinds of values that a variable can have. -/
theorem null_or_scalar_or_list_or_members (value : Value) : value = .null ∨
    (∃ s, value = .scalar s) ∨ (∃ items, value = .list items) ∨
      ∃ entries, value.members? = some entries := by
  cases value <;> simp [Value.members?]

theorem eq_ofItems_iff : shape = .ofItems texts ↔
    (texts = [] ∧ shape = .undefined) ∨ (texts ≠ [] ∧ shape = .list texts) := by
  cases texts <;> simp [Shape.ofItems]

theorem eq_ofEntries_iff : shape = .ofEntries pairs ↔
    (pairs = [] ∧ shape = .undefined) ∨ (pairs ≠ [] ∧ shape = .pairs pairs) := by
  cases pairs <;> simp [Shape.ofEntries]

theorem ne_of_members? (h : value.members? = some entries) :
    value ≠ .null ∧ (∀ s, value ≠ .scalar s) ∧ ∀ items, value ≠ .list items := by
  cases value <;> simp [Value.members?] at h ⊢

theorem shape_eq_undefined_iff : value.shape = .ok .undefined ↔ value = .null ∨
    (∃ items, value = .list items ∧ ∀ item ∈ items, item = .null) ∨
      ∃ entries, value.members? = some entries ∧ ∀ e ∈ entries, e.2 = .null := by
  rcases null_or_scalar_or_list_or_members value with rfl | ⟨s, rfl⟩ | ⟨items, rfl⟩ | ⟨entries, h⟩
  · simp [Value.shape]
  · simp [Value.shape, Value.members?]
  · simp [shape_list_eq_ok_iff, eq_ofItems_iff, holdsItems_nil_iff, OneFamily, Value.members?]
  · obtain ⟨hnull, -, hlist⟩ := ne_of_members? h
    simp [shape_members_eq_ok_iff h, eq_ofEntries_iff, holdsEntries_nil_iff, hnull, hlist, h]

theorem shape_eq_scalar_iff :
    value.shape = .ok (.scalar text) ↔ ∃ s, value = .scalar s ∧ text = s.canonical := by
  rcases null_or_scalar_or_list_or_members value with rfl | ⟨s, rfl⟩ | ⟨items, rfl⟩ | ⟨entries, h⟩
  · simp [Value.shape]
  · simp [Value.shape, eq_comm]
  · simp [shape_list_eq_ok_iff, eq_ofItems_iff]
  · obtain ⟨-, hscalar, -⟩ := ne_of_members? h
    simp [shape_members_eq_ok_iff h, eq_ofEntries_iff, hscalar]

theorem shape_eq_list_iff : value.shape = .ok (.list texts) ↔
    ∃ items scalars, value = .list items ∧ HoldsItems items scalars ∧ OneFamily scalars ∧
      scalars ≠ [] ∧ texts = scalars.map Scalar.canonical := by
  rcases null_or_scalar_or_list_or_members value with rfl | ⟨s, rfl⟩ | ⟨items, rfl⟩ | ⟨entries, h⟩
  · simp [Value.shape]
  · simp [Value.shape]
  · simp [shape_list_eq_ok_iff, eq_ofItems_iff]
  · obtain ⟨-, -, hlist⟩ := ne_of_members? h
    simp [shape_members_eq_ok_iff h, eq_ofEntries_iff, hlist]

theorem shape_eq_pairs_iff : value.shape = .ok (.pairs pairs) ↔
    ∃ entries members, value.members? = some entries ∧ HoldsEntries entries members ∧
      members ≠ [] ∧ pairs = members.map fun m => (m.1, m.2.canonical) := by
  rcases null_or_scalar_or_list_or_members value with rfl | ⟨s, rfl⟩ | ⟨items, rfl⟩ | ⟨entries, h⟩
  · simp [Value.shape, Value.members?]
  · simp [Value.shape, Value.members?]
  · simp [shape_list_eq_ok_iff, eq_ofItems_iff, Value.members?]
  · simp [shape_members_eq_ok_iff h, eq_ofEntries_iff, h]

theorem shape_eq_error_iff : value.shape = .error fault ↔
    (∃ items, value = .list items ∧ ItemFault items fault) ∨
      ∃ entries, value.members? = some entries ∧ EntryFault entries fault := by
  rcases null_or_scalar_or_list_or_members value with rfl | ⟨s, rfl⟩ | ⟨items, rfl⟩ | ⟨entries, h⟩
  · simp [Value.shape, Value.members?]
  · simp [Value.shape, Value.members?]
  · simp [shape_list_eq_error_iff, Value.members?]
  · obtain ⟨-, -, hlist⟩ := ne_of_members? h
    simp [shape_members_eq_error_iff h, hlist, h]

end Shapes

/-! ## Answers -/

section Answers

variable {context value : Value} {name : Text} {shape : Shape} {e : ShapeError}

theorem lookup?_map_eq_none_iff {entries : List (Text × Value)} :
    (Value.map entries).lookup? name = none ↔ ∀ e ∈ entries, e.1 ≠ name := by
  simp [Value.lookup?]

theorem finds_iff {found : Option Value} :
    Finds context name found ↔ context.lookup? name = found := by
  constructor
  · intro h
    cases h with
    | entry hfront =>
      rw [lookup?_map_append, lookup?_map_eq_none_iff.2 hfront, lookup?_map_cons, if_pos rfl]
      rfl
    | noEntry hentries => exact lookup?_map_eq_none_iff.2 hentries
    | property names property? name => rfl
    | noNames name hform => cases context <;> simp [Value.form] at hform <;> rfl
  · rintro rfl
    cases context with
    | null => exact .noNames name (by simp [Value.form])
    | scalar s => exact .noNames name (by simp [Value.form])
    | list items => exact .noNames name (by simp [Value.form])
    | record names property? => exact .property names property? name
    | map entries =>
      cases hfound : (Value.map entries).lookup? name with
      | none => exact .noEntry (lookup?_map_eq_none_iff.1 hfound)
      | some value =>
        obtain ⟨e, he, rfl⟩ := Option.map_eq_some_iff.1 hfound
        obtain ⟨hname, front, back, rfl, hfront⟩ := List.find?_eq_some_iff_append.1 he
        have hkey : e.1 = name := by simpa using hname
        subst hkey
        exact .entry fun e' he' => by simpa using hfront e' he'

theorem resolve_eq_ok_iff (h : context.lookup? name = some value) :
    context.resolve name = .ok shape ↔ value.shape = .ok shape := by
  unfold Value.resolve
  rw [h]
  exact mapError_eq_ok_iff

theorem resolve_eq_error_iff (h : context.lookup? name = some value) :
    context.resolve name = .error e ↔ e.name = name ∧ value.shape = .error e.fault := by
  unfold Value.resolve
  rw [h]
  show value.shape.mapError _ = .error e ↔ _
  rw [mapError_eq_error_iff]
  obtain ⟨name', fault⟩ := e
  constructor
  · rintro ⟨fault', hfault, he⟩
    obtain ⟨rfl, rfl⟩ := ShapeError.mk.inj he
    exact ⟨rfl, hfault⟩
  · rintro ⟨rfl, hfault⟩
    exact ⟨fault, hfault, rfl⟩

end Answers

/-! ## Main statement -/

/-- **Classification.** What a name resolves to, by the one value that the context finds for it:
each shape exactly for the values that have it, with the texts of the scalars that they hold, and an
error that names the variable exactly for the values with an offender, with the fault of the
leftmost. -/
theorem resolve_classifies (context : Value) (name : Text) :
    (∃ found, ∀ found', Finds context name found' ↔ found' = found) ∧
    (Finds context name none → context.resolve name = .ok .undefined) ∧
    (∀ value, Finds context name (some value) →
      (context.resolve name = .ok .undefined ↔ value = .null ∨
        (∃ items, value = .list items ∧ ∀ item ∈ items, item = .null) ∨
          ∃ entries, value.members? = some entries ∧ ∀ e ∈ entries, e.2 = .null) ∧
      (∀ text, context.resolve name = .ok (.scalar text) ↔
        ∃ s, value = .scalar s ∧ text = s.canonical) ∧
      (∀ texts, context.resolve name = .ok (.list texts) ↔
        ∃ items scalars, value = .list items ∧ HoldsItems items scalars ∧ OneFamily scalars ∧
          scalars ≠ [] ∧ texts = scalars.map Scalar.canonical) ∧
      (∀ pairs, context.resolve name = .ok (.pairs pairs) ↔
        ∃ entries members, value.members? = some entries ∧ HoldsEntries entries members ∧
          members ≠ [] ∧ pairs = members.map fun m => (m.1, m.2.canonical)) ∧
      ∀ e, context.resolve name = .error e ↔ e.name = name ∧
        ((∃ items, value = .list items ∧ ItemFault items e.fault) ∨
          ∃ entries, value.members? = some entries ∧ EntryFault entries e.fault)) ∧
    (∀ found, ShapeError.message ⟨name, .compositeItem found⟩ =
      "Unsupported value shape for variable '".toList ++ name ++ "': ".toList ++
        ("list items must be scalars, found a ".toList ++ found.name)) ∧
    (∀ expected found, ShapeError.message ⟨name, .mixedItems expected found⟩ =
      "Unsupported value shape for variable '".toList ++ name ++ "': ".toList ++
        ("list mixes ".toList ++ expected.name ++ " and ".toList ++ found.name ++
          " values".toList)) ∧
    ∀ key found, ShapeError.message ⟨name, .nestedEntry key found⟩ =
      "Unsupported value shape for variable '".toList ++ name ++ "': ".toList ++
        ("entry '".toList ++ key ++ "' holds a nested ".toList ++ found.name ++
          ", only one level of keys is supported".toList) := by
  refine ⟨⟨_, fun found' => finds_iff.trans eq_comm⟩, fun h => ?_, fun value h => ?_, fun _ => rfl,
    fun _ _ => rfl, fun _ _ => rfl⟩
  · unfold Value.resolve
    rw [finds_iff.1 h]
  · have hlookup := finds_iff.1 h
    refine ⟨?_, fun text => ?_, fun texts => ?_, fun pairs => ?_, fun e => ?_⟩
    · exact (resolve_eq_ok_iff hlookup).trans shape_eq_undefined_iff
    · exact (resolve_eq_ok_iff hlookup).trans shape_eq_scalar_iff
    · exact (resolve_eq_ok_iff hlookup).trans shape_eq_list_iff
    · exact (resolve_eq_ok_iff hlookup).trans shape_eq_pairs_iff
    · exact (resolve_eq_error_iff hlookup).trans (and_congr Iff.rfl shape_eq_error_iff)

/-- A map with one name twice, whose first value has nulls between the items, with a list in which a
truth value follows texts in front of a list, and with a record that lists a name twice, another one
with null and one that it does not answer for; and a name that the map does not have. -/
theorem classification_sample :
    let items : List Value := [.null, .ofText "a".toList, .null, .ofText "b".toList]
    let mixed : List Value := items ++ .scalar (.bool true) :: [.list []]
    let record : Value := .ofProperties ["k".toList, "n".toList, "u".toList, "k".toList]
      [("n".toList, .null), ("k".toList, .scalar (.bool false))]
    let context : Value := .map [("x".toList, .list items), ("m".toList, .list mixed),
      ("r".toList, record), ("x".toList, .null)]
    context.resolve "x".toList = .ok (.list ["a".toList, "b".toList]) ∧
      context.resolve "m".toList = .error ⟨"m".toList, .mixedItems .text .boolean⟩ ∧
      context.resolve "r".toList =
        .ok (.pairs [("k".toList, "false".toList), ("k".toList, "false".toList)]) ∧
      context.resolve "u".toList = .ok .undefined := by
  intro items mixed record context
  have hholds : HoldsItems items [.string "a".toList, .string "b".toList] := rfl
  have hfamily : OneFamily [.string "a".toList, .string "b".toList] := by
    simp [OneFamily, Scalar.family]
  have hx : Finds context "x".toList (some (.list items)) := finds_iff.2 rfl
  have hm : Finds context "m".toList (some (.list mixed)) := finds_iff.2 rfl
  have hr : Finds context "r".toList (some record) := finds_iff.2 rfl
  have hu : Finds context "u".toList none := finds_iff.2 rfl
  obtain ⟨-, -, hlist, -⟩ := (resolve_classifies context _).2.2.1 _ hx
  obtain ⟨-, -, -, -, herror⟩ := (resolve_classifies context _).2.2.1 _ hm
  obtain ⟨-, -, -, hpairs, -⟩ := (resolve_classifies context _).2.2.1 _ hr
  refine ⟨?_, ?_, ?_, (resolve_classifies context _).2.1 hu⟩
  · exact (hlist _).2 ⟨items, _, rfl, hholds, hfamily, by simp, rfl⟩
  · refine (herror _).2 ⟨rfl, .inl ⟨mixed, rfl, items, _, _, [.list []], rfl, hholds, hfamily, ?_⟩⟩
    exact .mixed rfl (by decide)
  · exact (hpairs _).2 ⟨_, [("k".toList, .bool false), ("k".toList, .bool false)], rfl, rfl,
      by simp, rfl⟩

end UriTemplate
