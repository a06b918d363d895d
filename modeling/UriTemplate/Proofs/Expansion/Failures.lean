import UriTemplate.Expansion
import UriTemplate.Proofs.Except

/-!
# Which variable ends an expansion

A variable fails in a context if its value has no shape, or if its length is limited and its value
is a list or a map. Whether it does depends on nothing else: not on its operator, not on its place,
not on its neighbours. So the traversal of a template, with its loop over sections and its loop over
the variables of each, answers with the error of the first failing variable in the list of all
variables (`errorOf?_expand`), and with a text if there is none.
-/

namespace UriTemplate
set_option autoImplicit false

/-- Why a variable cannot be expanded in a context. -/
inductive VarSpec.FailsWith (context : Value) (spec : VarSpec) : ShapeError → Prop
  /-- Its value has no shape. -/
  | noShape {e : ShapeError} : context.resolve spec.name = .error e → spec.FailsWith context e
  /-- A length is put on a list. -/
  | limitedList {length : Nat} {items : List Text} : spec.maxLength? = some length →
      context.resolve spec.name = .ok (.list items) →
      spec.FailsWith context ⟨spec.name, .limitedList length⟩
  /-- A length is put on pairs. -/
  | limitedPairs {length : Nat} {entries : List (Text × Text)} : spec.maxLength? = some length →
      context.resolve spec.name = .ok (.pairs entries) →
      spec.FailsWith context ⟨spec.name, .limitedPairs length⟩

/-- A variable that cannot be expanded in a context. -/
def VarSpec.Fails (context : Value) (spec : VarSpec) : Prop := ∃ e, spec.FailsWith context e

/-- The error of a variable in a context, if it fails there. -/
def VarSpec.failure? (context : Value) (spec : VarSpec) : Option ShapeError :=
  match context.resolve spec.name, spec.maxLength? with
  | .error e, _ => some e
  | .ok (.list _), some length => some ⟨spec.name, .limitedList length⟩
  | .ok (.pairs _), some length => some ⟨spec.name, .limitedPairs length⟩
  | .ok _, _ => none

/-! ## One variable -/

section Variable

variable {context : Value} {spec : VarSpec} {e : ShapeError}

theorem VarSpec.failure?_eq_some_iff :
    spec.failure? context = some e ↔ spec.FailsWith context e := by
  constructor
  · intro h
    unfold failure? at h
    split at h <;> cases h
    · exact .noShape ‹_›
    · exact .limitedList ‹_› ‹_›
    · exact .limitedPairs ‹_› ‹_›
  · rintro (hresolve | ⟨hlength, hresolve⟩ | ⟨hlength, hresolve⟩) <;> simp [failure?, *]

theorem VarSpec.failure?_eq_none_iff : spec.failure? context = none ↔ ¬spec.Fails context := by
  unfold Fails
  simp only [← failure?_eq_some_iff]
  cases spec.failure? context <;> simp

/-- Undefined variables and texts take any length. -/
theorem VarSpec.not_fails_of_resolve
    (h : context.resolve spec.name = .ok .undefined ∨
      ∃ text, context.resolve spec.name = .ok (.scalar text)) : ¬spec.Fails context := by
  rw [← failure?_eq_none_iff]
  rcases h with h | ⟨text, h⟩ <;> simp [failure?, h]

/-- The operator decides what a variable is written as, but not whether it is. -/
theorem VarSpec.errorOf?_unit? (op : Operator) (context : Value) (spec : VarSpec) :
    errorOf? (spec.unit? op context) = spec.failure? context := by
  unfold unit? failure?
  cases hresolve : context.resolve spec.name with
  | error e => rfl
  | ok shape =>
    show errorOf? (spec.unitOfShape? op shape) = _
    cases hlength : spec.maxLength? <;> cases shape <;> simp [unitOfShape?, hlength, errorOf?]

end Variable

/-! ## All variables -/

theorem errorOf?_unitsOf (op : Operator) (context : Value) (specs : List VarSpec) :
    errorOf? (unitsOf op context specs) = specs.findSome? (VarSpec.failure? context) := by
  induction specs with
  | nil => rfl
  | cons spec specs ih =>
    show errorOf? ((spec.unit? op context).bind fun unit =>
      (unitsOf op context specs).bind fun units => .ok (unit.toList ++ units)) = _
    rw [errorOf?_bind_bind, VarSpec.errorOf?_unit?, ih, List.findSome?_cons]
    cases spec.failure? context <;> rfl

theorem errorOf?_section (context : Value) (s : Section) :
    errorOf? (s.expand context) = s.varSpecs.findSome? (VarSpec.failure? context) := by
  cases s with
  | literal text => rfl
  | expression e =>
    have hunits := errorOf?_unitsOf e.operator context e.varSpecs
    show errorOf? ((unitsOf e.operator context e.varSpecs).bind fun units =>
      .ok (joinUnits e.operator units)) = e.varSpecs.findSome? (VarSpec.failure? context)
    rw [← hunits]
    cases unitsOf e.operator context e.varSpecs <;> rfl

/-- **The error of an expansion** is the error of the first failing variable. The traversal of the
sections meets the variables in the order of the flattened list. -/
theorem errorOf?_expand (t : Template) (context : Value) :
    errorOf? (t.expand context) = t.varSpecs.findSome? (VarSpec.failure? context) := by
  obtain ⟨sections⟩ := t
  unfold Template.expand Template.varSpecs
  induction sections with
  | nil => rfl
  | cons s sections ih =>
    show errorOf? ((s.expand context).bind fun text =>
      (expandSections context sections).bind fun rest => .ok (text ++ rest)) = _
    rw [errorOf?_bind_bind, errorOf?_section, ih, List.flatMap_cons, List.findSome?_append]

/-- The error of an expansion is settled at any failing variable, by what stands in front of it. -/
theorem expand_eq_error_of_failure {t : Template} {context : Value} {front back : List VarSpec}
    {spec : VarSpec} {e : ShapeError} (ht : t.varSpecs = front ++ spec :: back)
    (h : spec.FailsWith context e) :
    t.expand context = .error ((front.findSome? (VarSpec.failure? context)).getD e) := by
  rw [← errorOf?_eq_some_iff, errorOf?_expand, ht, List.findSome?_append, List.findSome?_cons,
    VarSpec.failure?_eq_some_iff.2 h]
  cases front.findSome? (VarSpec.failure? context) <;> rfl

/-! ## Main statement -/

/-- **The first failing variable ends an expansion.** An expansion succeeds exactly if no variable
of the template fails; its error is the error of the first variable that does; and whatever else a
template holds, literals, operators and the variables behind a failing one, makes no difference. -/
theorem expand_error_iff_first_failure (t : Template) (context : Value) :
    ((∃ text, t.expand context = .ok text) ↔ ∀ spec ∈ t.varSpecs, ¬spec.Fails context) ∧
    (∀ e, t.expand context = .error e ↔ ∃ front spec back,
      t.varSpecs = front ++ spec :: back ∧ spec.FailsWith context e ∧
        ∀ spec' ∈ front, ¬spec'.Fails context) ∧
    (∀ (t' : Template) front spec back back', t.varSpecs = front ++ spec :: back →
      t'.varSpecs = front ++ spec :: back' → spec.Fails context →
        t'.expand context = t.expand context) ∧
    (∀ spec : VarSpec, (context.resolve spec.name = .ok .undefined ∨
      ∃ text, context.resolve spec.name = .ok (.scalar text)) → ¬spec.Fails context) ∧
    ∀ name length,
      ShapeError.message ⟨name, .limitedList length⟩ =
        "Unsupported value shape for variable '".toList ++ name ++ "': ".toList ++
          ("max-length ':".toList ++ numeral length ++
            "' cannot be applied to a list".toList) ∧
      ShapeError.message ⟨name, .limitedPairs length⟩ =
        "Unsupported value shape for variable '".toList ++ name ++ "': ".toList ++
          ("max-length ':".toList ++ numeral length ++
            "' cannot be applied to a associative array".toList) := by
  refine ⟨?_, ?_, ?_, fun spec h => VarSpec.not_fails_of_resolve h, fun name length => ⟨rfl, rfl⟩⟩
  · rw [← errorOf?_eq_none_iff, errorOf?_expand, List.findSome?_eq_none_iff]
    exact forall₂_congr fun spec _ => VarSpec.failure?_eq_none_iff
  · intro e
    rw [← errorOf?_eq_some_iff, errorOf?_expand, List.findSome?_eq_some_iff]
    simp only [VarSpec.failure?_eq_some_iff, VarSpec.failure?_eq_none_iff]
  · rintro t' front spec back back' ht ht' ⟨e, he⟩
    rw [expand_eq_error_of_failure ht he, expand_eq_error_of_failure ht' he]

/-- An undefined variable and a text with a length, then a list with one, then a nested map; in the
other template only what stands in front of the list is the same. -/
theorem first_failure_sample :
    let context : Value := .map [("s".toList, .ofText "text".toList),
      ("l".toList, .ofTexts ["x".toList]), ("n".toList, .map [("k".toList, .ofTexts [[]])])]
    let undefined : VarSpec := .withMaxLength (.plain "u".toList) 3
    let text : VarSpec := .withMaxLength (.plain "s".toList) 2
    let list : VarSpec := .withMaxLength (.plain "l".toList) 5
    let nested : VarSpec := .plain "n".toList
    let t : Template := ⟨[.literal "a".toList, .expression ⟨.query, [undefined, text, list]⟩,
      .expression ⟨.simple, [nested]⟩]⟩
    let t' : Template := ⟨[.expression ⟨.simple, [undefined, text]⟩, .literal "b".toList,
      .expression ⟨.path, [list]⟩]⟩
    t.expand context = .error ⟨"l".toList, .limitedList 5⟩ ∧
      t'.expand context = .error ⟨"l".toList, .limitedList 5⟩ ∧
      ∃ output, (⟨[.expression ⟨.query, [undefined, text]⟩]⟩ : Template).expand context =
        .ok output := by
  intro context undefined text list nested t t'
  have hundefined : ¬undefined.Fails context := VarSpec.not_fails_of_resolve (.inl rfl)
  have htext : ¬text.Fails context := VarSpec.not_fails_of_resolve (.inr ⟨"text".toList, rfl⟩)
  have hlist : list.FailsWith context ⟨"l".toList, .limitedList 5⟩ :=
    @VarSpec.FailsWith.limitedList context list 5 ["x".toList] rfl rfl
  obtain ⟨-, hfirst, hsame, -⟩ := expand_error_iff_first_failure t context
  have ht : t.expand context = .error ⟨"l".toList, .limitedList 5⟩ := by
    refine (hfirst _).2 ⟨[undefined, text], list, [nested], rfl, hlist, ?_⟩
    simpa using ⟨hundefined, htext⟩
  have ht' : t'.expand context = t.expand context :=
    hsame t' [undefined, text] list [nested] [] rfl rfl ⟨_, hlist⟩
  refine ⟨ht, ht'.trans ht, (expand_error_iff_first_failure _ context).1.2 ?_⟩
  simpa [Template.varSpecs, Section.varSpecs] using ⟨hundefined, htext⟩

end UriTemplate
