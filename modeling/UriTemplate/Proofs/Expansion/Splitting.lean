import UriTemplate.Proofs.Expansion.Pieces

/-!
# An expression in two

An expression collects the units of all its variables and joins them once. Two expressions that
share these variables out collect the same units, in the same order and with the same errors, but
each joins its own behind its own first character. Where the first character is the separator, this
makes no difference (`joinUnits_append`); a query goes on as its continuation, since the two
operators write the same units; the other operators need a comma between the two texts if both have
one. Which of them have one depends on the variables that are defined (`unitsOf_eq_nil_iff`).
-/

namespace UriTemplate
set_option autoImplicit false

/-- A context gives some of these variables a value. -/
def Defines (context : Value) (specs : List VarSpec) : Prop :=
  ∃ spec ∈ specs, ∃ shape, context.resolve spec.name = .ok shape ∧ shape ≠ .undefined

/-- The expansion of expressions that stand one behind the other. -/
def expandExpressions (context : Value) (expressions : List Expression) : Except ShapeError Text :=
  Template.expand ⟨expressions.map .expression⟩ context

/-- What an expression writes behind its operator's first character. -/
def bodyOf (op : Operator) (text : Text) : Text := text.drop op.first.length

variable {context : Value} {op op' : Operator} {xs ys specs : List VarSpec}
  {us vs units : List Text}

theorem first_eq_separator : ∀ op ∈ [Operator.label, .path, .parameter, .continuation],
    op.first = [op.separator] := by decide

theorem separator_eq_comma : ∀ op ∈ [Operator.simple, .reserved, .fragment],
    op.separator = ',' := by decide

theorem expandExpressions_single (context : Value) (e : Expression) :
    expandExpressions context [e] = e.expand context := by
  show ((e.expand context).bind fun text => .ok (text ++ [])) = e.expand context
  cases e.expand context <;> simp [Except.bind]

theorem expandExpressions_pair (context : Value) (e e' : Expression) :
    expandExpressions context [e, e'] =
      (e.expand context).bind fun text => (e'.expand context).map (text ++ ·) := by
  have hsingle := expandExpressions_single context e'
  show ((e.expand context).bind fun text =>
    (expandExpressions context [e']).bind fun rest => .ok (text ++ rest)) = _
  rw [hsingle]
  cases e.expand context <;> cases e'.expand context <;> rfl

/-! ## Units -/

theorem unitsOf_append (op : Operator) (context : Value) (xs ys : List VarSpec) :
    unitsOf op context (xs ++ ys) =
      (unitsOf op context xs).bind fun us => (unitsOf op context ys).map (us ++ ·) := by
  induction xs with
  | nil =>
    show unitsOf op context ys = (unitsOf op context ys).map ([] ++ ·)
    cases unitsOf op context ys <;> rfl
  | cons spec xs ih =>
    rw [List.cons_append, unitsOf, ih, unitsOf]
    cases spec.unit? op context <;> cases unitsOf op context xs <;>
      cases unitsOf op context ys <;> simp [bind, Except.bind, Except.map]

/-- A query and its continuation differ in nothing but their first characters. -/
theorem unitsOf_continuation (context : Value) (specs : List VarSpec) :
    unitsOf .continuation context specs = unitsOf .query context specs := by
  induction specs with
  | nil => rfl
  | cons spec specs ih =>
    have hunit : spec.unit? .continuation context = spec.unit? .query context := rfl
    rw [unitsOf, unitsOf, hunit, ih]

/-- There are units exactly if a variable is defined. -/
theorem unitsOf_eq_nil_iff (h : unitsOf op context specs = .ok units) :
    units = [] ↔ ¬Defines context specs := by
  induction specs generalizing units with
  | nil =>
    cases h
    simp [Defines]
  | cons spec specs ih =>
    obtain ⟨unit, units', hunit, hunits, rfl⟩ := unitsOf_cons_eq_ok_iff.1 h
    obtain ⟨hresolve, hshape⟩ := unit?_eq_ok_iff.1 hunit
    have hdefines : Defines context (spec :: specs) ↔
        context.shapeOf spec.name ≠ .undefined ∨ Defines context specs := by
      simp [Defines, hresolve]
    rw [hdefines, VarSpec.unit_eq_pieces hshape, List.append_eq_nil_iff, ih hunits, not_or]
    by_cases hundefined : context.shapeOf spec.name = .undefined <;> simp [hundefined]

/-! ## Joins -/

/-- Units are joined in two parts if the second part starts with the separator. -/
theorem joinUnits_append (hfirst : op'.first = [op.separator])
    (hseparator : op'.separator = op.separator) (hus : us ≠ []) (vs : List Text) :
    joinUnits op (us ++ vs) = joinUnits op us ++ joinUnits op' vs := by
  unfold joinUnits
  by_cases hvs : vs = []
  · simp [hvs]
  · rw [if_neg (by simp [hus]), if_neg hus, if_neg hvs, intercalate_append hus hvs, hfirst,
      hseparator]
    simp only [List.append_assoc]

theorem joinUnits_of_ne_nil (hus : us ≠ []) :
    joinUnits op us = op.first ++ bodyOf op (joinUnits op us) := by
  simp [joinUnits, bodyOf, hus]

theorem joinUnits_append_body (hus : us ≠ []) (hvs : vs ≠ []) :
    joinUnits op (us ++ vs) =
      op.first ++ bodyOf op (joinUnits op us) ++ op.separator :: bodyOf op (joinUnits op vs) := by
  simp [joinUnits, bodyOf, hus, hvs, intercalate_append hus hvs]

/-! ## Expressions -/

theorem expand_eq_ok_iff {text : Text} : Expression.expand context ⟨op, specs⟩ = .ok text ↔
    ∃ units, unitsOf op context specs = .ok units ∧ joinUnits op units = text := by
  unfold Expression.expand
  cases unitsOf op context specs <;> simp [bind, Except.bind]

theorem expand_append (op : Operator) (context : Value) (xs ys : List VarSpec) :
    Expression.expand context ⟨op, xs ++ ys⟩ = (unitsOf op context xs).bind fun us =>
      (unitsOf op context ys).map fun vs => joinUnits op (us ++ vs) := by
  unfold Expression.expand
  rw [unitsOf_append]
  cases unitsOf op context xs <;> cases unitsOf op context ys <;> rfl

/-- An expression is that of its first variables and, behind it, the rest with an operator that goes
on where the first leaves off. -/
theorem expandExpressions_append (hunits : unitsOf op' context ys = unitsOf op context ys)
    (hjoin : ∀ us, unitsOf op context xs = .ok us → ∀ vs,
      joinUnits op (us ++ vs) = joinUnits op us ++ joinUnits op' vs) :
    expandExpressions context [⟨op, xs ++ ys⟩] =
      expandExpressions context [⟨op, xs⟩, ⟨op', ys⟩] := by
  rw [expandExpressions_single, expand_append, expandExpressions_pair]
  unfold Expression.expand
  rw [hunits]
  cases hxs : unitsOf op context xs with
  | error e => rfl
  | ok us =>
    cases unitsOf op context ys with
    | error e => rfl
    | ok vs => exact congrArg Except.ok (hjoin us hxs vs)

theorem expandExpressions_append_self (hfirst : op.first = [op.separator]) :
    expandExpressions context [⟨op, xs ++ ys⟩] =
      expandExpressions context [⟨op, xs⟩, ⟨op, ys⟩] := by
  refine expandExpressions_append rfl fun us _ vs => ?_
  by_cases hus : us = []
  · subst hus
    rfl
  · exact joinUnits_append hfirst rfl hus vs

theorem expandExpressions_append_query
    (h : Defines context xs ∨ ∃ e, expandExpressions context [⟨.query, xs⟩] = .error e) :
    expandExpressions context [⟨.query, xs ++ ys⟩] =
      expandExpressions context [⟨.query, xs⟩, ⟨.continuation, ys⟩] := by
  refine expandExpressions_append (unitsOf_continuation context ys) fun us hxs vs => ?_
  have hus : us ≠ [] := by
    rcases h with h | ⟨e, he⟩
    · exact fun hnil => (unitsOf_eq_nil_iff hxs).1 hnil h
    · rw [expandExpressions_single, expand_eq_ok_iff.2 ⟨us, hxs, rfl⟩] at he
      cases he
  have hfirst : Operator.first .continuation = [Operator.separator .query] := rfl
  exact joinUnits_append hfirst rfl hus vs

/-- Two expressions that expand give the units of the one that has all their variables. -/
theorem exists_units_of_expand {tx ty : Text} (hxs : expandExpressions context [⟨op, xs⟩] = .ok tx)
    (hys : expandExpressions context [⟨op, ys⟩] = .ok ty) :
    ∃ us vs, (us = [] ↔ ¬Defines context xs) ∧ (vs = [] ↔ ¬Defines context ys) ∧
      joinUnits op us = tx ∧ joinUnits op vs = ty ∧
      expandExpressions context [⟨op, xs ++ ys⟩] = .ok (joinUnits op (us ++ vs)) := by
  rw [expandExpressions_single] at hxs hys
  obtain ⟨us, hus, htx⟩ := expand_eq_ok_iff.1 hxs
  obtain ⟨vs, hvs, hty⟩ := expand_eq_ok_iff.1 hys
  refine ⟨us, vs, unitsOf_eq_nil_iff hus, unitsOf_eq_nil_iff hvs, htx, hty, ?_⟩
  rw [expandExpressions_single, expand_append, hus, hvs]
  rfl

/-- Variables that are all undefined go from the front of an expression. -/
theorem expandExpressions_append_of_not_defines
    (h : ¬(Defines context xs ∨ ∃ e, expandExpressions context [⟨op, xs⟩] = .error e)) :
    expandExpressions context [⟨op, xs ++ ys⟩] = expandExpressions context [⟨op, ys⟩] := by
  rw [not_or] at h
  obtain ⟨hdefines, hfails⟩ := h
  rw [expandExpressions_single, expandExpressions_single, expand_append]
  rw [expandExpressions_single] at hfails
  unfold Expression.expand at hfails ⊢
  cases hus : unitsOf op context xs with
  | error e => exact absurd ⟨e, by rw [hus]; rfl⟩ hfails
  | ok us =>
    rw [(unitsOf_eq_nil_iff hus).2 hdefines]
    cases unitsOf op context ys <;> rfl

/-! ## Main statement -/

/-- **Splitting an expression.** The variables of an expression can be shared out to two expressions
one behind the other: with the same operator where its first character is its separator; with a
query and its continuation if the first variables define something or fail, and to the second alone
otherwise. For the operators that separate by commas and two parts that expand, the texts of those
that define something stand behind one first character with a comma between them. -/
theorem expand_split (context : Value) (xs ys : List VarSpec) :
    (∀ op ∈ [Operator.label, .path, .parameter, .continuation],
      expandExpressions context [⟨op, xs ++ ys⟩] =
        expandExpressions context [⟨op, xs⟩, ⟨op, ys⟩]) ∧
    (Defines context xs ∨ (∃ e, expandExpressions context [⟨.query, xs⟩] = .error e) →
      expandExpressions context [⟨.query, xs ++ ys⟩] =
        expandExpressions context [⟨.query, xs⟩, ⟨.continuation, ys⟩]) ∧
    (¬(Defines context xs ∨ ∃ e, expandExpressions context [⟨.query, xs⟩] = .error e) →
      expandExpressions context [⟨.query, xs ++ ys⟩] = expandExpressions context [⟨.query, ys⟩]) ∧
    ∀ op ∈ [Operator.simple, .reserved, .fragment], ∀ tx ty,
      expandExpressions context [⟨op, xs⟩] = .ok tx →
      expandExpressions context [⟨op, ys⟩] = .ok ty →
        (Defines context xs → Defines context ys → expandExpressions context [⟨op, xs ++ ys⟩] =
          .ok (op.first ++ bodyOf op tx ++ ',' :: bodyOf op ty)) ∧
        (Defines context xs → ¬Defines context ys → expandExpressions context [⟨op, xs ++ ys⟩] =
          .ok (op.first ++ bodyOf op tx)) ∧
        (¬Defines context xs → Defines context ys → expandExpressions context [⟨op, xs ++ ys⟩] =
          .ok (op.first ++ bodyOf op ty)) ∧
        (¬Defines context xs → ¬Defines context ys →
          expandExpressions context [⟨op, xs ++ ys⟩] = .ok []) := by
  refine ⟨?_, expandExpressions_append_query, expandExpressions_append_of_not_defines, ?_⟩
  · intro op hop
    exact expandExpressions_append_self (first_eq_separator op hop)
  · intro op hop tx ty htx hty
    obtain ⟨us, vs, hus, hvs, rfl, rfl, hboth⟩ := exists_units_of_expand htx hty
    rw [hboth]
    refine ⟨fun hx hy => ?_, fun hx hy => ?_, fun hx hy => ?_, fun hx hy => ?_⟩
    · rw [joinUnits_append_body (fun h => hus.1 h hx) (fun h => hvs.1 h hy),
        separator_eq_comma op hop]
    · rw [hvs.2 hy, List.append_nil, ← joinUnits_of_ne_nil fun h => hus.1 h hx]
    · rw [hus.2 hx, List.nil_append, ← joinUnits_of_ne_nil fun h => hvs.1 h hy]
    · rw [hus.2 hx, hvs.2 hy]
      rfl

/-- A text and an undefined variable in front of an empty text, as a query and as a fragment; then
the undefined variable alone in front, and a list whose limit fails. -/
theorem split_sample :
    let context : Value := .map [("x".toList, .ofText "1".toList), ("e".toList, .ofText []),
      ("l".toList, .ofTexts ["2".toList])]
    let x : VarSpec := .plain "x".toList
    let undefined : VarSpec := .withExplode (.plain "u".toList)
    let empty : VarSpec := .plain "e".toList
    let limited : VarSpec := .withMaxLength (.plain "l".toList) 1
    expandExpressions context [⟨.query, [x, undefined] ++ [empty]⟩] = .ok "?x=1&e=".toList ∧
      expandExpressions context [⟨.query, [undefined] ++ [empty]⟩] = .ok "?e=".toList ∧
      expandExpressions context [⟨.query, [limited] ++ [empty]⟩] =
        .error ⟨"l".toList, .limitedList 1⟩ ∧
      expandExpressions context [⟨.fragment, [x, undefined] ++ [empty]⟩] = .ok "#1,".toList := by
  intro context x undefined empty limited
  have hx : ∀ specs, Defines context (x :: specs) := fun specs =>
    ⟨x, List.mem_cons_self, .scalar "1".toList, rfl, by decide⟩
  have hempty : Defines context [empty] := ⟨empty, List.mem_cons_self, .scalar [], rfl, by decide⟩
  have hundefined : ¬(Defines context [undefined] ∨
      ∃ e, expandExpressions context [⟨.query, [undefined]⟩] = .error e) := by
    rintro (⟨spec, hspec, shape, hshape, hne⟩ | ⟨e, he⟩)
    · rw [List.mem_singleton.1 hspec] at hshape
      cases hshape
      exact hne rfl
    · cases he
  refine ⟨?_, ?_, ?_, ?_⟩
  · rw [(expand_split context [x, undefined] [empty]).2.1 (.inl (hx _))]
    rfl
  · rw [(expand_split context [undefined] [empty]).2.2.1 hundefined]
    rfl
  · rw [(expand_split context [limited] [empty]).2.1 (.inr ⟨_, rfl⟩)]
    rfl
  · obtain ⟨-, -, -, hcomma⟩ := expand_split context [x, undefined] [empty]
    exact (hcomma .fragment (by decide) "#1".toList "#".toList rfl rfl).1 (hx _) hempty

end UriTemplate
