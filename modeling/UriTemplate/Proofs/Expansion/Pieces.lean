import UriTemplate.Expansion
import UriTemplate.Proofs.Except
import UriTemplate.Proofs.Text.Join

/-!
# The pieces of an expression

The expansion of an expression, seen without the units of single variables: every defined variable
contributes *pieces*, one for each member of an exploded composite value and one in all other
cases, and the expansion is the pieces of all variables with the separator between any two of them
(`expand_eq_pieces`). An exploded value brings its separators along in its unit, so this rests on
the fact that a composite value that has a shape has a member.
-/

namespace UriTemplate
set_option autoImplicit false

/-! ## Shapes -/

/-- The shape of a name in a context; a name whose value has no shape counts as undefined. -/
def Value.shapeOf (context : Value) (name : Text) : Shape :=
  match context.resolve name with
  | .ok shape => shape
  | .error _ => .undefined

/-- A composite shape has a member. -/
def Shape.HasMember : Shape → Prop
  | .list items => items ≠ []
  | .pairs entries => entries ≠ []
  | _ => True

theorem Value.hasMember_of_shape {v : Value} {shape : Shape} (h : v.shape = .ok shape) :
    shape.HasMember := by
  have hitems : ∀ items, (Shape.ofItems items).HasMember := by
    intro items
    cases items <;> simp [Shape.ofItems, Shape.HasMember]
  have hentries : ∀ entries, (Shape.ofEntries entries).HasMember := by
    intro entries
    cases entries <;> simp [Shape.ofEntries, Shape.HasMember]
  unfold Value.shape at h
  split at h
  · cases h
    trivial
  · cases h
    trivial
  all_goals
    obtain ⟨members, -, rfl⟩ := map_eq_ok_iff.1 h
    first | exact hitems members | exact hentries members

theorem Value.hasMember_of_resolve {context : Value} {name : Text} {shape : Shape}
    (h : context.resolve name = .ok shape) : shape.HasMember := by
  unfold Value.resolve at h
  split at h
  · cases h
    trivial
  · exact Value.hasMember_of_shape (mapError_eq_ok_iff.1 h)

/-! ## Pieces -/

namespace VarSpec

/-- What a variable contributes to an expansion, separator by separator. -/
def pieces (op : Operator) (spec : VarSpec) : Shape → List Text
  | .undefined => []
  | .scalar text => [spec.scalarUnit op text]
  | .list items =>
    if spec.isExploded then
      items.map fun item => nameIfWanted op spec.name (Percent.encode op.allowsReserved item)
    else [spec.listUnit op items]
  | .pairs entries =>
    if spec.isExploded then
      entries.map fun e => pairText op (Percent.encode op.allowsReserved e.1)
        (Percent.encode op.allowsReserved e.2)
    else [spec.pairsUnit op entries]

variable {op : Operator} {spec : VarSpec} {shape : Shape}

theorem pieces_eq_nil_iff (h : shape.HasMember) :
    spec.pieces op shape = [] ↔ shape = .undefined := by
  cases shape with
  | undefined => simp [pieces]
  | scalar text => simp [pieces]
  | list items =>
    have hitems : items ≠ [] := h
    simp only [pieces]
    split <;> simp [hitems]
  | pairs entries =>
    have hentries : entries ≠ [] := h
    simp only [pieces]
    split <;> simp [hentries]

/-- The unit of a variable is its pieces with the separator between them. -/
theorem unit_eq_pieces {unit : Option Text} (h : spec.unitOfShape? op shape = .ok unit) :
    unit = if shape = .undefined then none
      else some (List.intercalate [op.separator] (spec.pieces op shape)) := by
  unfold unitOfShape? at h
  split at h <;> cases h
  · rfl
  · simp [pieces]
  · simp only [pieces, listUnit]
    split <;> simp [*, Function.comp_def]
  · simp only [pieces, pairsUnit]
    split <;> simp [*]

end VarSpec

/-- The pieces of variables, in order. -/
def piecesOf (op : Operator) (context : Value) (specs : List VarSpec) : List Text :=
  specs.flatMap fun spec => spec.pieces op (context.shapeOf spec.name)

theorem unit?_eq_ok_iff {op : Operator} {context : Value} {spec : VarSpec} {unit : Option Text} :
    spec.unit? op context = .ok unit ↔
      context.resolve spec.name = .ok (context.shapeOf spec.name) ∧
        spec.unitOfShape? op (context.shapeOf spec.name) = .ok unit := by
  unfold VarSpec.unit? Value.shapeOf
  cases context.resolve spec.name <;> simp [bind, Except.bind]

section Units

variable {op : Operator} {context : Value} {spec : VarSpec} {specs : List VarSpec}
  {units : List Text}

theorem unitsOf_cons_eq_ok_iff : unitsOf op context (spec :: specs) = .ok units ↔
    ∃ unit units', spec.unit? op context = .ok unit ∧ unitsOf op context specs = .ok units' ∧
      units = unit.toList ++ units' := by
  cases hu : spec.unit? op context <;> cases hs : unitsOf op context specs <;>
    simp [unitsOf, hu, hs, bind, Except.bind, eq_comm]

/-- Every variable of an expression that expands has a shape. -/
theorem resolve_of_unitsOf (h : unitsOf op context specs = .ok units) :
    ∀ spec ∈ specs, context.resolve spec.name = .ok (context.shapeOf spec.name) := by
  induction specs generalizing units with
  | nil => simp
  | cons spec specs ih =>
    obtain ⟨unit, units', hunit, hunits, rfl⟩ := unitsOf_cons_eq_ok_iff.1 h
    intro spec' hspec'
    rcases List.mem_cons.1 hspec' with rfl | hmem
    · exact (unit?_eq_ok_iff.1 hunit).1
    · exact ih hunits spec' hmem

/-- Units join as their pieces do. -/
theorem unitsOf_eq_pieces (h : unitsOf op context specs = .ok units) :
    (units = [] ↔ piecesOf op context specs = []) ∧
      List.intercalate [op.separator] units =
        List.intercalate [op.separator] (piecesOf op context specs) := by
  induction specs generalizing units with
  | nil =>
    cases h
    simp [piecesOf]
  | cons spec specs ih =>
    obtain ⟨unit, units', hunit, hunits, rfl⟩ := unitsOf_cons_eq_ok_iff.1 h
    obtain ⟨hempty, hjoin⟩ := ih hunits
    obtain ⟨hresolve, hshape⟩ := unit?_eq_ok_iff.1 hunit
    have hmember := Value.hasMember_of_resolve hresolve
    have hpieces : piecesOf op context (spec :: specs) =
        spec.pieces op (context.shapeOf spec.name) ++ piecesOf op context specs := rfl
    rw [hpieces, VarSpec.unit_eq_pieces hshape]
    by_cases hundef : context.shapeOf spec.name = .undefined
    · simpa [hundef, VarSpec.pieces] using ⟨hempty, hjoin⟩
    · have hne : spec.pieces op (context.shapeOf spec.name) ≠ [] :=
        mt (VarSpec.pieces_eq_nil_iff hmember).1 hundef
      refine ⟨by simp [hundef, hne], ?_⟩
      rw [if_neg hundef]
      exact intercalate_group hne hempty hjoin

/-- **An expression that expands** is its pieces behind the operator's first character. -/
theorem expand_eq_pieces {e : Expression} {text : Text} (h : e.expand context = .ok text) :
    text = joinUnits e.operator (piecesOf e.operator context e.varSpecs) := by
  obtain ⟨units, hunits, htext⟩ := bind_eq_ok_iff.1 h
  cases htext
  obtain ⟨hempty, hjoin⟩ := unitsOf_eq_pieces hunits
  simp only [joinUnits, hempty, hjoin]

end Units

end UriTemplate
