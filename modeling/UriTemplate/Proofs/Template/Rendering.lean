import UriTemplate.Proofs.Json.RoundTrip
import UriTemplate.Proofs.Template.NormalForm
import UriTemplate.Resolution
import UriTemplate.Template.Render

/-!
# Templates as values

A template has a value: a map of its sections, each a map of its kind and its content. This is the
value of the JSON that the template is rendered as, and it says all of the template:
`Template.ofValue?` takes it back, looking its parts up by name.
-/

namespace UriTemplate
set_option autoImplicit false

/-! ## The value of a template -/

/-- The value of a modifier: the length under its name, or a word. -/
def Modifier.toValue : Modifier → Value
  | .maxLength length => .map [("prefix".toList, .scalar (.int (Int64.ofNat length)))]
  | .explode => .ofText "explode".toList

/-- The value of a variable specification, with null for no modifier. -/
def VarSpec.toValue (spec : VarSpec) : Value :=
  .map [("name".toList, .ofText spec.name),
    ("modifier".toList, match spec.modifier with
      | some modifier => modifier.toValue
      | none => .null)]

/-- The value of an expression. -/
def Expression.toValue (e : Expression) : Value :=
  .map [("operator".toList, .ofText e.operator.tag),
    ("var_specs".toList, .list (e.varSpecs.map VarSpec.toValue))]

/-- The value of a section. -/
def Section.toValue : Section → Value
  | .literal text =>
    .map [("kind".toList, .ofText "literal".toList), ("value".toList, .ofText text)]
  | .expression e =>
    .map [("kind".toList, .ofText "expression".toList), ("value".toList, e.toValue)]

/-- The value of a template. -/
def Template.toValue (t : Template) : Value :=
  .map [("sections".toList, .list (t.sections.map Section.toValue))]

/-! ## The value of the rendered template -/

theorem toValues_eq_map (items : List Json) : Json.toValues items = items.map Json.toValue := by
  induction items with
  | nil => rfl
  | cons item items ih => rw [Json.toValues, List.map_cons, ih]

/-- Items that are rendered one by one have the values of what they are rendered from. -/
theorem toValues_map {α : Type} {render : α → Json} {value : α → Value} {members : List α}
    (h : ∀ x ∈ members, (render x).toValue = value x) :
    Json.toValues (members.map render) = members.map value := by
  rw [toValues_eq_map, List.map_map]
  exact List.map_congr_left h

theorem toScalar_length {length : Nat} (h : length ≤ maxLengthLimit) :
    (JsonNumber.natural (UInt64.ofNat length)).toScalar = .int (Int64.ofNat length) := by
  have hword : (UInt64.ofNat length).toNat = length := by
    rw [UInt64.toNat_ofNat']
    apply Nat.mod_eq_of_lt
    simp only [maxLengthLimit] at h
    omega
  have hholds : (IntegerType.signed 64).Holds (UInt64.ofNat length).toNat := by
    rw [hword]
    simp only [maxLengthLimit] at h
    constructor
    · show -(2 ^ 63 : Int) ≤ length
      omega
    · show (length : Int) ≤ 2 ^ 63 - 1
      omega
  exact if_pos hholds

theorem VarSpec.toValue_toJson {spec : VarSpec} (h : spec.WellFormed) :
    spec.toJson.toValue = spec.toValue := by
  obtain ⟨name, modifier⟩ := spec
  match modifier with
  | none | some .explode => rfl
  | some (.maxLength length) =>
    have hlength := toScalar_length (h.length length rfl).2
    simp [VarSpec.toJson, VarSpec.toValue, Modifier.toJson, Modifier.toValue, Json.toValue,
      Json.toEntries, hlength]

theorem Expression.toValue_toJson {e : Expression} (h : e.WellFormed) :
    e.toJson.toValue = e.toValue := by
  have hspecs := toValues_map fun spec hspec => VarSpec.toValue_toJson (h.varSpecs spec hspec)
  simp [Expression.toJson, Expression.toValue, Json.toValue, Json.toEntries, hspecs]

theorem Section.toValue_toJson {s : Section} (h : s.WellFormed) : s.toJson.toValue = s.toValue := by
  cases s with
  | literal text => rfl
  | expression e =>
    have he := Expression.toValue_toJson h
    simp [Section.toJson, Section.toValue, Json.toValue, Json.toEntries, he]

theorem Template.toValue_toJson {t : Template} (h : t.WellFormed) :
    t.toJson.toValue = t.toValue := by
  have hsections := toValues_map fun s hs => Section.toValue_toJson (h s hs)
  simp [Template.toJson, Template.toValue, Json.toValue, Json.toEntries, hsections]

/-! ## Rendered templates are read as they were written -/

section Plain

variable {n : Nat}

theorem Json.Plain.single {j : Json} (h : j.Plain n) (key : Text) :
    (Json.object [(key, j)]).Plain (n + 1) := by
  apply Json.Plain.object
  · simp
  · simpa using h

theorem Json.Plain.pair {j j' : Json} (h : j.Plain n) (h' : j'.Plain n) {key key' : Text}
    (hne : key ≠ key') : (Json.object [(key, j), (key', j')]).Plain (n + 1) := by
  apply Json.Plain.object
  · simpa using hne
  · simpa using ⟨h, h'⟩

theorem Json.Plain.array_map {α : Type} {render : α → Json} (h : ∀ x, (render x).Plain n)
    (members : List α) : (Json.array (members.map render)).Plain (n + 1) := by
  apply Json.Plain.array
  intro item hitem
  obtain ⟨x, -, rfl⟩ := List.mem_map.1 hitem
  exact h x

theorem VarSpec.plain_toJson (spec : VarSpec) : spec.toJson.Plain (n + 2) := by
  obtain ⟨name, modifier⟩ := spec
  have hmodifier : ((modifier.map Modifier.toJson).getD .null).Plain (n + 1) := by
    match modifier with
    | none => exact .null
    | some (.maxLength length) => exact (Json.Plain.number _).single _
    | some .explode => exact .string _
  exact (Json.Plain.string name).pair hmodifier (by decide)

theorem Expression.plain_toJson (e : Expression) : e.toJson.Plain (n + 4) :=
  (Json.Plain.string e.operator.tag).pair (.array_map VarSpec.plain_toJson e.varSpecs) (by decide)

theorem Section.plain_toJson (s : Section) : s.toJson.Plain (n + 5) := by
  cases s with
  | literal text => exact (Json.Plain.string _).pair (.string text) (by decide)
  | expression e => exact (Json.Plain.string _).pair e.plain_toJson (by decide)

/-- A rendered template is at most seven arrays and objects deep. -/
theorem Template.plain_toJson (t : Template) : t.toJson.Plain (n + 7) :=
  (Json.Plain.array_map Section.plain_toJson t.sections).single _

end Plain

/-! ## Taking a template back -/

/-- The text of a scalar that is one. -/
def Value.text? : Value → Option Text
  | .scalar (.string s) => some s
  | _ => none

/-- The items of a list. -/
def Value.items? : Value → Option (List Value)
  | .list items => some items
  | _ => none

/-- The operator of a name. -/
def Operator.ofTag? (tag : Text) : Option Operator :=
  [.simple, .reserved, .fragment, .label, .path, .parameter, .query, .continuation].find? fun op =>
    op.tag = tag

/-- The modifier that a value says, or that there is none. -/
def Modifier.ofValue? : Value → Option (Option Modifier)
  | .null => some none
  | .scalar (.string s) => if s = "explode".toList then some (some .explode) else none
  | v =>
    match v.lookup? "prefix".toList with
    | some (.scalar (.int length)) => some (some (.maxLength length.toInt.toNat))
    | _ => none

/-- The variable specification of a value. -/
def VarSpec.ofValue? (v : Value) : Option VarSpec := do
  let name ← (← v.lookup? "name".toList).text?
  let modifier ← Modifier.ofValue? (← v.lookup? "modifier".toList)
  some ⟨name, modifier⟩

/-- The expression of a value. -/
def Expression.ofValue? (v : Value) : Option Expression := do
  let operator ← Operator.ofTag? (← (← v.lookup? "operator".toList).text?)
  let varSpecs ← (← (← v.lookup? "var_specs".toList).items?).mapM VarSpec.ofValue?
  some ⟨operator, varSpecs⟩

/-- The section of a value. -/
def Section.ofValue? (v : Value) : Option Section := do
  let kind ← (← v.lookup? "kind".toList).text?
  let content ← v.lookup? "value".toList
  if kind = "literal".toList then content.text?.map .literal
  else if kind = "expression".toList then (Expression.ofValue? content).map .expression
  else none

/-- The template of a value. -/
def Template.ofValue? (v : Value) : Option Template := do
  let sections ← (← (← v.lookup? "sections".toList).items?).mapM Section.ofValue?
  some ⟨sections⟩

theorem Operator.ofTag?_tag (op : Operator) : ofTag? op.tag = some op := by
  cases op <;> decide

/-- What is taken back member by member is taken back as a list. -/
theorem mapM_map_eq_some {α β : Type} {value : α → β} {back? : β → Option α} {members : List α}
    (h : ∀ x ∈ members, back? (value x) = some x) :
    (members.map value).mapM back? = some members := by
  induction members with
  | nil => rfl
  | cons x members ih =>
    obtain ⟨hx, hmembers⟩ := List.forall_mem_cons.1 h
    rw [List.map_cons, List.mapM_cons, hx, ih hmembers]
    rfl

theorem Modifier.ofValue?_maxLength {length : Nat} (h : length ≤ maxLengthLimit) :
    ofValue? (Modifier.maxLength length).toValue = some (some (.maxLength length)) := by
  have hint : (Int64.ofNat length).toInt = length := by
    apply Int64.toInt_ofNat_of_lt
    simp only [maxLengthLimit] at h
    omega
  show some (some (Modifier.maxLength (Int64.ofNat length).toInt.toNat)) = _
  rw [hint, Int.toNat_natCast]

theorem VarSpec.ofValue?_toValue {spec : VarSpec} (h : spec.WellFormed) :
    ofValue? spec.toValue = some spec := by
  obtain ⟨name, modifier⟩ := spec
  match modifier with
  | none | some .explode => rfl
  | some (.maxLength length) =>
    show (Modifier.ofValue? (Modifier.maxLength length).toValue).bind
      (fun modifier => some (VarSpec.mk name modifier)) = _
    rw [Modifier.ofValue?_maxLength (h.length length rfl).2]
    rfl

theorem Expression.ofValue?_toValue {e : Expression} (h : e.WellFormed) :
    ofValue? e.toValue = some e := by
  have hspecs := mapM_map_eq_some fun spec hspec => VarSpec.ofValue?_toValue (h.varSpecs spec hspec)
  show (Operator.ofTag? e.operator.tag).bind _ = _
  rw [Operator.ofTag?_tag, Option.bind_some]
  show ((e.varSpecs.map VarSpec.toValue).mapM VarSpec.ofValue?).bind _ = _
  rw [hspecs]
  rfl

theorem Section.ofValue?_toValue {s : Section} (h : s.WellFormed) :
    ofValue? s.toValue = some s := by
  cases s with
  | literal text => rfl
  | expression e =>
    show (Expression.ofValue? e.toValue).map _ = _
    rw [Expression.ofValue?_toValue h]
    rfl

/-- **A well-formed template** is taken back from its value. -/
theorem Template.ofValue?_toValue {t : Template} (h : t.WellFormed) :
    ofValue? t.toValue = some t := by
  have hsections := mapM_map_eq_some fun s hs => Section.ofValue?_toValue (h s hs)
  show ((t.sections.map Section.toValue).mapM Section.ofValue?).bind _ = _
  rw [hsections]
  rfl

end UriTemplate
