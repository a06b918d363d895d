import UriTemplate.Expansion

/-!
# Expansion depends on the variables that are named

A context enters an expansion only through the shapes of the variables that the template names, and
through the errors of those that have none. Contexts that agree there give the same expansion, or
the same failure, whatever else they hold and whatever their own form is.
-/

namespace UriTemplate
set_option autoImplicit false

/-- Two contexts give each of some variables the same shape or the same error. -/
def AgreeOn (context context' : Value) (specs : List VarSpec) : Prop :=
  ∀ spec ∈ specs, context.resolve spec.name = context'.resolve spec.name

variable {context context' : Value}

theorem unitsOf_congr {specs : List VarSpec} (h : AgreeOn context context' specs)
    (op : Operator) : unitsOf op context specs = unitsOf op context' specs := by
  induction specs with
  | nil => rfl
  | cons spec specs ih =>
    obtain ⟨hspec, hspecs⟩ := List.forall_mem_cons.1 h
    have hunit : spec.unit? op context = spec.unit? op context' := by
      unfold VarSpec.unit?
      rw [hspec]
    unfold unitsOf
    rw [hunit, ih hspecs]

theorem Section.expand_congr {s : Section} (h : AgreeOn context context' s.varSpecs) :
    s.expand context = s.expand context' := by
  cases s with
  | literal text => rfl
  | expression e =>
    have hspecs : AgreeOn context context' e.varSpecs := h
    show e.expand context = e.expand context'
    unfold Expression.expand
    rw [unitsOf_congr hspecs]

/-- **Agreement.** Contexts that agree on the variables of a template expand it alike. -/
theorem Template.expand_congr {t : Template} (h : AgreeOn context context' t.varSpecs) :
    t.expand context = t.expand context' := by
  obtain ⟨sections⟩ := t
  unfold Template.expand
  induction sections with
  | nil => rfl
  | cons s sections ih =>
    have hhead : AgreeOn context context' s.varSpecs := by
      intro spec hspec
      exact h spec (List.mem_append_left _ hspec)
    have htail : AgreeOn context context' (Template.varSpecs ⟨sections⟩) := by
      intro spec hspec
      exact h spec (List.mem_append_right _ hspec)
    unfold expandSections
    rw [Section.expand_congr hhead, ih htail]

end UriTemplate
