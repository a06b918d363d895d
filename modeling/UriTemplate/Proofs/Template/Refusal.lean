import UriTemplate.Proofs.Template.RoundTrip

/-!
# Where reading fails

A text that is no template is refused at a place, and what stands in front of that place is the
start of a template (`readSections_refusal`): each reader refuses where a letter, a digit or a
closing brace would still have led on, or in front of something that could have been left out. The
completion is put together along with the recursion of the readers; every reader needs it only up
to the nonterminal that it reads (`ViableBefore`).
-/

namespace UriTemplate
set_option autoImplicit false
open Template

/-- The text in front of `rest` is the start of a text with the property `p`. -/
def ViableBefore (p : Text → Prop) (s rest : Text) : Prop :=
  ∃ front completion, s = front ++ rest ∧ p (front ++ completion)

section Viable

variable {p q : Text → Prop} {s rest : Text}

theorem ViableBefore.here {completion : Text} (h : p completion) : ViableBefore p s s :=
  ⟨[], completion, rfl, h⟩

/-- What is viable in a part is viable in the whole, if the part can be completed to a whole. -/
theorem ViableBefore.frame (before behind : Text) (h : ViableBefore p s rest)
    (hpq : ∀ text, p text → q (before ++ text ++ behind)) : ViableBefore q (before ++ s) rest := by
  obtain ⟨front, completion, rfl, hp⟩ := h
  refine ⟨before ++ front, completion ++ behind, by simp, ?_⟩
  simpa using hpq _ hp

/-- The case of a part that the whole ends with. -/
theorem ViableBefore.prefixed (before : Text) (h : ViableBefore p s rest)
    (hpq : ∀ text, p text → q (before ++ text)) : ViableBefore q (before ++ s) rest :=
  h.frame before [] fun text hp => by simpa using hpq text hp

end Viable

/-! ## The text in front of a refusal -/

section Viability

variable {opening s : Text} {r : Refusal}

theorem nameFrom_letter (state : NameState) : NameFrom state ['a'] :=
  NameFrom.varChar (.letter (by decide)) .nil state

/-- Where a name may be refused: at the expression that the text ends in, at the dot in front of the
text, or behind the start of a name. -/
inductive NameRefusal (opening : Text) (state : NameState) (s : Text) : Text → Prop
  | unterminated : NameRefusal opening state s opening
  | trailingDot : state = .behindDot → NameRefusal opening state s ('.' :: s)
  | viable {rest : Text} : ViableBefore (NameFrom state) s rest →
      NameRefusal opening state s rest

theorem NameRefusal.here (state : NameState) : NameRefusal opening state s s :=
  .viable (.here (nameFrom_letter state))

theorem NameRefusal.varChar {w rest : Text} (hw : Grammar.VarChar w) (state : NameState)
    (h : NameRefusal opening .behindChar s rest) : NameRefusal opening state (w ++ s) rest := by
  cases h with
  | unterminated => exact .unterminated
  | trailingDot hstate => cases hstate
  | viable hviable => exact .viable (hviable.prefixed w fun n hn => NameFrom.varChar hw hn state)

/-- A name may end where a dot was read that it does not continue behind. -/
theorem NameRefusal.dot {rest : Text} (h : NameRefusal opening .behindDot s rest) :
    NameRefusal opening .behindChar ('.' :: s) rest := by
  cases h with
  | unterminated => exact .unterminated
  | trailingDot => exact .viable (.here (show NameFrom .behindChar [] from .nil))
  | viable hviable => exact .viable (hviable.prefixed ['.'] fun n hn => hn.dot)

theorem endName_refusal {state : NameState} (h : endName opening state s = .error r) :
    NameRefusal opening state s r.rest := by
  unfold endName at h
  split at h <;> cases h
  · exact .unterminated
  · exact .here .start
  · exact .trailingDot rfl

theorem readName_refusal {state : NameState} (h : readName opening state s = .error r) :
    NameRefusal opening state s r.rest := by
  fun_induction readName opening state s with
  | case1 state => exact endName_refusal h
  | case2 state c s hc ih =>
    exact (ih (map_eq_error_iff.1 h)).varChar (varChar_of_isNameChar hc) state
  | case3 state a b s hhex hc ih =>
    simp only [Bool.and_eq_true, isHexDigit_iff] at hhex
    exact (ih (map_eq_error_iff.1 h)).varChar (.triplet hhex.1 hhex.2) state
  | case4 state | case5 state | case7 state =>
    -- an incomplete triplet or a dot that may not stand here, in place of a letter
    cases h
    exact .here state
  | case6 s hc hp ih => exact (ih (map_eq_error_iff.1 h)).dot
  | case8 state c s hc hp hd => exact endName_refusal h

/-- Whatever is wrong with a length, it is refused where its digits start. -/
theorem readMaxLength_refusal (h : readMaxLength s = .error r) : r.rest = s := by
  simp only [readMaxLength] at h
  split at h
  · cases h
    rfl
  split at h
  · cases h
    rfl
  split at h <;> cases h
  rfl

/-- A modifier is refused where it could have had the length one, or where a second one starts. -/
theorem readModifier_refusal {name : Text} (hname : Grammar.VarName name)
    (h : readModifier name s = .error r) : ViableBefore Grammar.VarSpec (name ++ s) r.rest := by
  unfold readModifier at h
  split at h
  · rename_i s'
    rcases bind_eq_error_iff.1 h with h | ⟨⟨m, rest⟩, hread, hsecond⟩
    · have hone : Grammar.MaxLength ['1'] := .mk (by decide) (by decide) (by simp) (by decide)
      rw [readMaxLength_refusal h]
      exact ⟨name ++ [':'], ['1'], by simp, by simpa using Grammar.VarSpec.maxLength hname hone⟩
    · obtain ⟨n, rfl, hn, rfl, -⟩ := readMaxLength_eq_ok_iff.1 hread
      dsimp only at hsecond
      split at hsecond <;> cases hsecond
      have hlength := Grammar.VarSpec.maxLength hname (maxLengthText_numeral hn)
      exact ⟨name ++ ':' :: numeral n, [], by simp, by simpa using hlength⟩
  · split at h <;> cases h
    exact ⟨name ++ ['*'], [], by simp, by simpa using Grammar.VarSpec.explode hname⟩
  · cases h

theorem readVarSpec_refusal (h : readVarSpec opening s = .error r) :
    r.rest = opening ∨ ViableBefore Grammar.VarSpec s r.rest := by
  rcases bind_eq_error_iff.1 h with hname | ⟨⟨name, s'⟩, hname, h'⟩
  · have hrefusal := readName_refusal hname
    generalize r.rest = rest at hrefusal ⊢
    cases hrefusal with
    | unterminated => exact .inl rfl
    | trailingDot hstate => cases hstate
    | viable hviable => exact .inr (hviable.prefixed [] fun _ => .plain)
  · obtain ⟨hn, rfl, -⟩ := readName_eq_ok_iff.1 hname
    rcases bind_eq_error_iff.1 h' with hmodifier | ⟨_, -, hok⟩
    · exact .inr (readModifier_refusal hn hmodifier)
    · cases hok

theorem varSpecText_of_readVarSpec {spec : VarSpec} {rest : Text}
    (h : readVarSpec opening s = .ok (spec, rest)) :
    Grammar.VarSpec spec.toText ∧ s = spec.toText ++ rest := by
  obtain ⟨hspec, hs, -⟩ := readVarSpec_eq_ok_iff.1 h
  exact ⟨varSpecText_iff_exists.2 ⟨spec, hspec, rfl⟩, hs⟩

/-- The list that was read up to the refusal ends with the specification that can be completed, or
with the one in front of a character that is neither a comma nor a closing brace. -/
theorem readVarSpecs_refusal (h : readVarSpecs opening s = .error r) :
    r.rest = opening ∨ ViableBefore Grammar.VariableList s r.rest := by
  fun_induction readVarSpecs opening s with
  | case1 s e hread =>
    cases h
    exact (readVarSpec_refusal hread).imp id fun hviable =>
      hviable.prefixed [] fun _ => .one
  | case2 =>
    cases h
    exact .inl rfl
  | case3 s spec rest hread _ ih =>
    obtain ⟨hspec, rfl⟩ := varSpecText_of_readVarSpec hread
    refine (ih (map_eq_error_iff.1 h)).imp id fun hviable => ?_
    have hlist := hviable.prefixed (q := Grammar.VariableList) (spec.toText ++ [','])
      fun text ht => by simpa using Grammar.VariableList.more hspec ht
    simpa using hlist
  | case4 => cases h
  | case5 s spec c rest hread =>
    cases h
    obtain ⟨hspec, rfl⟩ := varSpecText_of_readVarSpec hread
    exact .inr ⟨spec.toText, [], rfl, by simpa using Grammar.VariableList.one hspec⟩

theorem template_of_variableList {o list : Text} (ho : Grammar.OperatorMark o)
    (hlist : Grammar.VariableList list) :
    Grammar.Template ('{' :: o ++ list ++ ['}']) := by
  simpa using Grammar.Template.expression (.mk ho hlist) .nil

/-- Behind an opening brace there is always a way to a whole expression, except that an expression
which the text ends in is refused as a whole. -/
theorem readExpression_refusal (h : readExpression s = .error r) :
    ViableBefore Grammar.Template ('{' :: s) r.rest := by
  have hlist : ∀ {o s'}, Grammar.OperatorMark o → s = o ++ s' →
      readVarSpecs ('{' :: s) s' = .error r → ViableBefore Grammar.Template ('{' :: s) r.rest := by
    rintro o s' ho rfl h
    rcases readVarSpecs_refusal h with hopening | hviable
    · rw [hopening]
      exact .here .nil
    · exact hviable.frame ('{' :: o) ['}'] fun _ ht => template_of_variableList ho ht
  unfold readExpression at h
  split at h
  · cases h
    exact .here .nil
  rename_i c s'
  split at h
  · rename_i op hop
    have hmark : op.toText = [c] := by
      rw [Operator.toText, Operator.ofChar?_eq_some_iff.1 hop]
      rfl
    exact hlist (operatorMark_iff_exists.2 ⟨op, hmark⟩) rfl (map_eq_error_iff.1 h)
  split at h
  · cases h
    have hletter : Grammar.VariableList ['a'] := .one (.plain (nameFrom_letter .start))
    exact ⟨['{'], ['a', '}'], rfl, template_of_variableList .absent hletter⟩
  · exact hlist .absent rfl (map_eq_error_iff.1 h)

/-- **Viable prefixes.** What stands in front of the place of a refusal is the start of a
template. -/
theorem readSections_refusal (h : readSections s = .error r) :
    ViableBefore Grammar.Template s r.rest := by
  fun_induction readSections s with
  | case1 => cases h
  | case2 s e hread =>
    cases h
    exact readExpression_refusal hread
  | case3 s e rest hread _ ih =>
    obtain ⟨he, hs⟩ := readExpression_eq_ok_iff.1 hread
    have htext := expressionText_iff_exists.2 ⟨e, he, rfl⟩
    rw [hs]
    exact (ih (map_eq_error_iff.1 h)).prefixed e.toText fun _ ht => .expression htext ht
  | case4 s =>
    cases h
    exact .here .nil
  | case5 c s hopen hclose ih =>
    exact (ih (map_eq_error_iff.1 h)).prefixed [c] fun _ ht => .literal hopen hclose ht

end Viability

/-! ## Errors -/

theorem parse_eq_error_iff {s : Text} {e : SyntaxError} : parse s = .error e ↔
    ∃ r, readSections s = .error r ∧
      e = ⟨Text.utf8Length s - Text.utf8Length r.rest, r.fault⟩ := by
  unfold parse
  cases readSections s <;> simp [eq_comm]

theorem exists_parse_of_grammar {s : Text} (h : Grammar.Template s) : ∃ t, parse s = .ok t := by
  obtain ⟨t, ht, rfl⟩ := grammar_iff_exists.1 h
  exact ⟨t.normalize, parse_toText ht⟩

end UriTemplate
