import UriTemplate.Expansion

/-!
# Undefined variables are transparent

A variable that a context leaves undefined writes nothing, whatever its modifier, and an expression
all of whose variables are undefined writes not even its operator's first character.
`Template.withoutUndefined` takes both away, and what is left expands in that context as the
template does, to the same text or with the same error: separators stand between defined variables
only, and the variable that fails first is still the first. In a context that gives no variable a
value, a template expands to its literals.
-/

namespace UriTemplate
set_option autoImplicit false

/-- Whether a context leaves a variable undefined. -/
def VarSpec.isUndefined (context : Value) (spec : VarSpec) : Bool :=
  match context.resolve spec.name with
  | .ok .undefined => true
  | _ => false

/-- The variables that are not undefined in a context: they have a value, or an error. -/
def notUndefined (context : Value) (specs : List VarSpec) : List VarSpec :=
  specs.filter fun spec => !spec.isUndefined context

/-- A section without its undefined variables; an expression that keeps none is left out. -/
def Section.withoutUndefined? (context : Value) : Section → Option Section
  | .literal text => some (.literal text)
  | .expression e =>
    if notUndefined context e.varSpecs = [] then none
    else some (.expression ⟨e.operator, notUndefined context e.varSpecs⟩)

/-- A template without its undefined variables and without the expressions that keep none. -/
def Template.withoutUndefined (context : Value) (t : Template) : Template :=
  ⟨t.sections.filterMap (Section.withoutUndefined? context)⟩

/-- What a section is without the values of variables. -/
def Section.literalText : Section → Text
  | .literal text => text
  | .expression _ => []

/-- The literals of a template, one behind the other. -/
def Template.literalText (t : Template) : Text := t.sections.flatMap Section.literalText

variable {context : Value}

/-! ## One expression -/

theorem isUndefined_iff {spec : VarSpec} :
    spec.isUndefined context = true ↔ context.resolve spec.name = .ok .undefined := by
  unfold VarSpec.isUndefined
  split <;> simp_all

theorem unit?_of_isUndefined {spec : VarSpec} (h : spec.isUndefined context = true)
    (op : Operator) : spec.unit? op context = .ok none := by
  unfold VarSpec.unit?
  rw [isUndefined_iff.1 h]
  rfl

/-- Undefined variables put no unit between those of their neighbours. -/
theorem unitsOf_notUndefined (op : Operator) (context : Value) (specs : List VarSpec) :
    unitsOf op context (notUndefined context specs) = unitsOf op context specs := by
  induction specs with
  | nil => rfl
  | cons spec specs ih =>
    by_cases h : spec.isUndefined context = true
    · have hdrop : notUndefined context (spec :: specs) = notUndefined context specs :=
        List.filter_cons_of_neg (by simpa using h)
      rw [hdrop, ih, unitsOf, unit?_of_isUndefined h]
      cases unitsOf op context specs <;> rfl
    · have hkeep : notUndefined context (spec :: specs) =
          spec :: notUndefined context specs :=
        List.filter_cons_of_pos (by simpa using h)
      rw [hkeep, unitsOf, ih, unitsOf]

theorem notUndefined_eq_nil_iff {specs : List VarSpec} :
    notUndefined context specs = [] ↔ ∀ spec ∈ specs, spec.isUndefined context = true := by
  simp [notUndefined]

theorem expandExpression_notUndefined (context : Value) (e : Expression) :
    Expression.expand context ⟨e.operator, notUndefined context e.varSpecs⟩ =
      e.expand context := by
  unfold Expression.expand
  rw [unitsOf_notUndefined]

/-- Without a unit not even the operator's first character is written. -/
theorem expandExpression_of_isUndefined {e : Expression}
    (h : ∀ spec ∈ e.varSpecs, spec.isUndefined context = true) : e.expand context = .ok [] := by
  rw [← expandExpression_notUndefined, notUndefined_eq_nil_iff.2 h]
  rfl

/-- What becomes of a section: it goes if it writes nothing, and otherwise keeps what it writes. -/
theorem Section.withoutUndefined?_cases (context : Value) (s : Section) :
    (s.withoutUndefined? context = none ∧ s.expand context = .ok [] ∧
      notUndefined context s.varSpecs = []) ∨
    ∃ s', s.withoutUndefined? context = some s' ∧ s'.expand context = s.expand context ∧
      s'.varSpecs = notUndefined context s.varSpecs := by
  cases s with
  | literal text => exact .inr ⟨.literal text, rfl, rfl, rfl⟩
  | expression e =>
    by_cases h : notUndefined context e.varSpecs = []
    · refine .inl ⟨if_pos h, ?_, h⟩
      exact expandExpression_of_isUndefined (notUndefined_eq_nil_iff.1 h)
    · refine .inr ⟨_, if_neg h, ?_, rfl⟩
      exact expandExpression_notUndefined context e

/-! ## All sections -/

theorem expandSections_withoutUndefined (context : Value) (sections : List Section) :
    expandSections context (sections.filterMap (Section.withoutUndefined? context)) =
      expandSections context sections := by
  induction sections with
  | nil => rfl
  | cons s sections ih =>
    rcases s.withoutUndefined?_cases context with ⟨hgone, hempty, -⟩ | ⟨s', hkept, hexpand, -⟩
    · rw [List.filterMap_cons_none hgone, ih, expandSections, hempty]
      cases expandSections context sections <;> rfl
    · rw [List.filterMap_cons_some hkept, expandSections, hexpand, ih, expandSections]

theorem varSpecs_withoutUndefined (context : Value) (t : Template) :
    (t.withoutUndefined context).varSpecs = notUndefined context t.varSpecs := by
  obtain ⟨sections⟩ := t
  unfold Template.withoutUndefined Template.varSpecs
  induction sections with
  | nil => rfl
  | cons s sections ih =>
    have hfilter : notUndefined context ((s :: sections).flatMap Section.varSpecs) =
        notUndefined context s.varSpecs ++
          notUndefined context (sections.flatMap Section.varSpecs) :=
      List.filter_append ..
    rw [hfilter, ← ih]
    rcases s.withoutUndefined?_cases context with ⟨hgone, -, hnone⟩ | ⟨s', hkept, -, hspecs⟩
    · rw [List.filterMap_cons_none hgone, hnone, List.nil_append]
    · rw [List.filterMap_cons_some hkept, List.flatMap_cons, hspecs]

theorem expandSections_of_isUndefined {sections : List Section}
    (h : ∀ spec ∈ sections.flatMap Section.varSpecs, spec.isUndefined context = true) :
    expandSections context sections = .ok (sections.flatMap Section.literalText) := by
  induction sections with
  | nil => rfl
  | cons s sections ih =>
    have hhead : s.expand context = .ok s.literalText := by
      cases s with
      | literal text => rfl
      | expression e =>
        refine expandExpression_of_isUndefined fun spec hspec => h spec ?_
        exact List.mem_append_left _ hspec
    have htail := ih fun spec hspec => h spec (List.mem_append_right _ hspec)
    rw [expandSections, hhead, htail]
    rfl

/-- Null, scalars and lists have no names. -/
theorem resolve_of_form (h : context.form ∈ [.null, .scalar, .list]) (name : Text) :
    context.resolve name = .ok .undefined := by
  cases context with
  | null => rfl
  | scalar s => rfl
  | list items => rfl
  | map entries => simp [Value.form] at h
  | record names property? => simp [Value.form] at h

/-! ## Main statement -/

/-- **Undefined variables are transparent.** A template without them, and without the expressions
that consist of them, expands in that context as the template does. If all variables of the template
are undefined, as they are in null, in a scalar and in a list, it expands to its literals. -/
theorem expand_withoutUndefined (t : Template) (context : Value) :
    (t.withoutUndefined context).varSpecs =
      t.varSpecs.filter (fun spec => !spec.isUndefined context) ∧
    (t.withoutUndefined context).expand context = t.expand context ∧
    ((∀ spec ∈ t.varSpecs, context.resolve spec.name = .ok .undefined) →
      t.expand context = .ok t.literalText) ∧
    (context.form ∈ [.null, .scalar, .list] →
      ∀ spec ∈ t.varSpecs, context.resolve spec.name = .ok .undefined) := by
  refine ⟨varSpecs_withoutUndefined context t, ?_, ?_, ?_⟩
  · exact expandSections_withoutUndefined context t.sections
  · intro h
    exact expandSections_of_isUndefined fun spec hspec => isUndefined_iff.2 (h spec hspec)
  · intro h spec _
    exact resolve_of_form h spec.name

/-- Undefined variables of several kinds, with and without modifiers, around a text and in an
expression of their own, in front of a limited list that fails; and the same template in a list. -/
theorem withoutUndefined_sample :
    let context : Value := .map [("x".toList, .ofText "1".toList), ("n".toList, .null),
      ("e".toList, .map [("k".toList, .null)]), ("l".toList, .ofTexts ["2".toList])]
    let x : VarSpec := .plain "x".toList
    let absent : VarSpec := .withMaxLength (.plain "a".toList) 3
    let null : VarSpec := .withExplode (.plain "n".toList)
    let empty : VarSpec := .plain "e".toList
    let list : VarSpec := .withMaxLength (.plain "l".toList) 1
    let t : Template := ⟨[.expression ⟨.query, [absent, x, null]⟩, .literal "-".toList,
      .expression ⟨.path, [empty, null]⟩]⟩
    let fails : Template := ⟨t.sections ++ [.expression ⟨.label, [null, list, empty]⟩]⟩
    t.withoutUndefined context = ⟨[.expression ⟨.query, [x]⟩, .literal "-".toList]⟩ ∧
      t.expand context = .ok "?x=1-".toList ∧
      fails.expand context = .error ⟨"l".toList, .limitedList 1⟩ ∧
      fails.expand (.ofTexts ["1".toList]) = .ok "-".toList := by
  intro context x absent null empty list t fails
  have hwithout : t.withoutUndefined context =
      ⟨[.expression ⟨.query, [x]⟩, .literal "-".toList]⟩ := by decide +kernel
  have hfails : fails.withoutUndefined context = ⟨[.expression ⟨.query, [x]⟩,
      .literal "-".toList, .expression ⟨.label, [list]⟩]⟩ := by decide +kernel
  obtain ⟨-, -, hliterals, hundefined⟩ := expand_withoutUndefined fails (.ofTexts ["1".toList])
  refine ⟨hwithout, ?_, ?_, hliterals (hundefined (by decide))⟩
  · rw [← (expand_withoutUndefined t context).2.1, hwithout]
    rfl
  · rw [← (expand_withoutUndefined fails context).2.1, hfails]
    rfl

end UriTemplate
