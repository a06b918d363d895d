import Mathlib.Data.List.Chain
import UriTemplate.Proofs.Template.Grammar
import UriTemplate.Proofs.Text.Numeral
import UriTemplate.Template.SyntaxError

/-!
# Well-formed templates and their normal form

A template is well-formed if it can be written down: its literals hold no brace, its expressions
have a variable, its names are names of the grammar and its lengths are within the limit. The
texts of well-formed templates are exactly the texts of the grammar (`grammar_iff_exists`). One
text can be written by several well-formed templates, since a literal may be empty or cut in two;
`Template.normalize` drops and joins such literals, and `Template.IsNormal` describes the result.
-/

namespace UriTemplate
set_option autoImplicit false

/-- A name of the grammar and a length within the limit. -/
structure VarSpec.WellFormed (spec : VarSpec) : Prop where
  name : Grammar.VarName spec.name
  length : ∀ n, spec.maxLength? = some n → 1 ≤ n ∧ n ≤ maxLengthLimit

/-- At least one variable, and each of them well-formed. -/
structure Expression.WellFormed (e : Expression) : Prop where
  nonempty : e.varSpecs ≠ []
  varSpecs : ∀ spec ∈ e.varSpecs, spec.WellFormed

/-- A literal without braces, or a well-formed expression. -/
def Section.WellFormed : Section → Prop
  | .literal text => '{' ∉ text ∧ '}' ∉ text
  | .expression e => e.WellFormed

/-- All sections are well-formed. -/
def Template.WellFormed (t : Template) : Prop := ∀ s ∈ t.sections, s.WellFormed

/-- Whether a section is a literal. -/
def Section.isLiteral : Section → Bool
  | .literal _ => true
  | .expression _ => false

/-- A well-formed template whose literals are not empty and do not stand side by side. -/
structure Template.IsNormal (t : Template) : Prop where
  wellFormed : t.WellFormed
  nonempty : .literal [] ∉ t.sections
  separated : t.sections.IsChain fun s s' => ¬(s.isLiteral = true ∧ s'.isLiteral = true)

/-- The sections without empty literals. -/
def dropEmptyLiterals (sections : List Section) : List Section :=
  sections.filter (· ≠ .literal [])

/-- A literal in front of sections, joined with a literal that starts them. -/
def joinLiteral (text : Text) : List Section → List Section
  | .literal text' :: sections => .literal (text ++ text') :: sections
  | sections => .literal text :: sections

/-- The sections with each run of literals as one literal. -/
def mergeLiterals : List Section → List Section
  | [] => []
  | .literal text :: sections => joinLiteral text (mergeLiterals sections)
  | .expression e :: sections => .expression e :: mergeLiterals sections

/-- The template without empty literals and with adjacent literals merged. -/
def Template.normalize (t : Template) : Template := ⟨mergeLiterals (dropEmptyLiterals t.sections)⟩

/-! ## Templates section by section -/

namespace Template

variable {s : Section} {sections : List Section} {text : Text} {e : Expression}

@[simp] theorem wellFormed_nil : (⟨[]⟩ : Template).WellFormed := by simp [WellFormed]

@[simp] theorem wellFormed_cons : (⟨s :: sections⟩ : Template).WellFormed ↔
    s.WellFormed ∧ (⟨sections⟩ : Template).WellFormed := by
  simp [WellFormed]

theorem isNormal_nil : (⟨[]⟩ : Template).IsNormal := ⟨wellFormed_nil, by simp, by simp⟩

theorem isNormal_literal_cons : (⟨.literal text :: sections⟩ : Template).IsNormal ↔
    text ≠ [] ∧ (Section.literal text).WellFormed ∧
      (∀ s ∈ sections.head?, s.isLiteral = false) ∧ (⟨sections⟩ : Template).IsNormal := by
  constructor
  · rintro ⟨hwf, hne, hsep⟩
    obtain ⟨hliteral, hsections⟩ := wellFormed_cons.1 hwf
    obtain ⟨hhead, htail⟩ := List.isChain_cons.1 hsep
    rw [List.mem_cons, not_or] at hne
    refine ⟨fun h => hne.1 (by rw [h]), hliteral, ?_, ⟨hsections, hne.2, htail⟩⟩
    intro s hs
    simpa [Section.isLiteral] using hhead s hs
  · rintro ⟨htext, hliteral, hhead, ⟨hsections, hne, htail⟩⟩
    refine ⟨wellFormed_cons.2 ⟨hliteral, hsections⟩, ?_, List.isChain_cons.2 ⟨?_, htail⟩⟩
    · simpa using ⟨htext, hne⟩
    · intro s hs
      simp [hhead s hs]

theorem isNormal_expression_cons : (⟨.expression e :: sections⟩ : Template).IsNormal ↔
    e.WellFormed ∧ (⟨sections⟩ : Template).IsNormal := by
  constructor
  · rintro ⟨hwf, hne, hsep⟩
    obtain ⟨he, hsections⟩ := wellFormed_cons.1 hwf
    exact ⟨he, ⟨hsections, List.not_mem_of_not_mem_cons hne, (List.isChain_cons.1 hsep).2⟩⟩
  · rintro ⟨he, ⟨hsections, hne, hsep⟩⟩
    refine ⟨wellFormed_cons.2 ⟨he, hsections⟩, by simpa using hne, List.isChain_cons.2 ⟨?_, hsep⟩⟩
    simp [Section.isLiteral]

end Template

/-! ## The texts of the grammar -/

theorem maxLengthText_numeral {n : Nat} (h : 1 ≤ n ∧ n ≤ maxLengthLimit) :
    Grammar.MaxLength (numeral n) := by
  have hlen : (numeral n).length ≤ 4 := length_numeral_le_four_iff.2 (by
    have := h.2
    simp only [maxLengthLimit] at this
    omega)
  have hdigits : ∀ c ∈ numeral n, c.isDigit = true := fun c hc => isDigit_of_mem_numeral hc
  have hzero := head?_numeral_ne_zero h.1
  cases hn : numeral n with
  | nil => exact absurd hn (numeral_ne_nil n)
  | cons d ds =>
    rw [hn] at hlen hdigits hzero
    rw [List.length_cons] at hlen
    have hd : d ≠ '0' := by simpa using hzero
    exact .mk (hdigits d (by simp)) hd (fun c hc => hdigits c (by simp [hc])) (by omega)

theorem exists_numeral_of_maxLengthText {l : Text} (h : Grammar.MaxLength l) :
    ∃ n, (1 ≤ n ∧ n ≤ maxLengthLimit) ∧ numeral n = l := by
  cases h with
  | @mk d ds hd hzero hds hlen =>
    obtain ⟨hword, hpos⟩ := numeral_digitsValue (List.cons_ne_nil d ds)
      (by simpa using ⟨hd, hds⟩) (by simpa using hzero)
    have hbound : (numeral (digitsValue (d :: ds))).length ≤ 4 := by
      rw [hword, List.length_cons]
      omega
    refine ⟨digitsValue (d :: ds), ⟨hpos, ?_⟩, hword⟩
    have := length_numeral_le_four_iff.1 hbound
    simp only [maxLengthLimit]
    omega

theorem operatorMark_iff_exists {o : Text} :
    Grammar.OperatorMark o ↔ ∃ op : Operator, op.toText = o := by
  constructor
  · rintro (_ | ⟨hc⟩)
    · exact ⟨.simple, rfl⟩
    · simp only [List.mem_cons, List.not_mem_nil, or_false] at hc
      rcases hc with rfl | rfl | rfl | rfl | rfl | rfl | rfl
      exacts [⟨.reserved, rfl⟩, ⟨.fragment, rfl⟩, ⟨.label, rfl⟩, ⟨.path, rfl⟩, ⟨.parameter, rfl⟩,
        ⟨.query, rfl⟩, ⟨.continuation, rfl⟩]
  · rintro ⟨op, rfl⟩
    cases op
    case simple => exact .absent
    all_goals exact .present (by decide)

theorem varSpecText_iff_exists {v : Text} :
    Grammar.VarSpec v ↔ ∃ spec : VarSpec, spec.WellFormed ∧ spec.toText = v := by
  constructor
  · rintro (hn | ⟨hn, hl⟩ | hn)
    · exact ⟨⟨v, none⟩, ⟨hn, by simp [VarSpec.maxLength?]⟩, by simp [VarSpec.toText]⟩
    · obtain ⟨n, hbound, rfl⟩ := exists_numeral_of_maxLengthText hl
      exact ⟨⟨_, some (.maxLength n)⟩, ⟨hn, by simpa [VarSpec.maxLength?] using hbound⟩, rfl⟩
    · exact ⟨⟨_, some .explode⟩, ⟨hn, by simp [VarSpec.maxLength?]⟩, rfl⟩
  · rintro ⟨⟨name, modifier⟩, ⟨hname, hlength⟩, rfl⟩
    match modifier with
    | none => simpa [VarSpec.toText] using Grammar.VarSpec.plain hname
    | some (.maxLength n) => exact .maxLength hname (maxLengthText_numeral (hlength n rfl))
    | some .explode => exact .explode hname

theorem variableList_iff_exists {s : Text} :
    Grammar.VariableList s ↔ ∃ specs : List VarSpec, specs ≠ [] ∧
      (∀ spec ∈ specs, spec.WellFormed) ∧
      List.intercalate [','] (specs.map VarSpec.toText) = s := by
  constructor
  · intro h
    induction h with
    | one hv =>
      obtain ⟨spec, hspec, rfl⟩ := varSpecText_iff_exists.1 hv
      exact ⟨[spec], by simp, by simpa using hspec, by simp⟩
    | more hv _ ih =>
      obtain ⟨spec, hspec, rfl⟩ := varSpecText_iff_exists.1 hv
      obtain ⟨specs, hne, hspecs, rfl⟩ := ih
      refine ⟨spec :: specs, by simp, by simpa using ⟨hspec, hspecs⟩, ?_⟩
      rw [List.map_cons, List.intercalate_cons_of_ne_nil (by simpa using hne)]
      simp
  · rintro ⟨specs, hne, hspecs, rfl⟩
    induction specs with
    | nil => exact absurd rfl hne
    | cons spec specs ih =>
      have hspec := varSpecText_iff_exists.2 ⟨spec, hspecs spec (by simp), rfl⟩
      by_cases hnil : specs = []
      · subst hnil
        simpa using Grammar.VariableList.one hspec
      · rw [List.map_cons, List.intercalate_cons_of_ne_nil (by simpa using hnil)]
        simpa using Grammar.VariableList.more hspec
          (ih hnil fun spec' h => hspecs spec' (by simp [h]))

theorem expressionText_iff_exists {s : Text} :
    Grammar.Expression s ↔ ∃ e : Expression, e.WellFormed ∧ e.toText = s := by
  constructor
  · rintro ⟨ho, hs⟩
    obtain ⟨op, rfl⟩ := operatorMark_iff_exists.1 ho
    obtain ⟨specs, hne, hspecs, rfl⟩ := variableList_iff_exists.1 hs
    exact ⟨⟨op, specs⟩, ⟨hne, hspecs⟩, rfl⟩
  · rintro ⟨e, he, rfl⟩
    exact .mk (operatorMark_iff_exists.2 ⟨e.operator, rfl⟩)
      (variableList_iff_exists.2 ⟨e.varSpecs, he.nonempty, he.varSpecs, rfl⟩)

theorem Grammar.Template.append {s s' : Text} (h : Grammar.Template s) (h' : Grammar.Template s') :
    Grammar.Template (s ++ s') := by
  induction h with
  | nil => exact h'
  | literal hopen hclose _ ih => exact .literal hopen hclose ih
  | expression he _ ih =>
    rw [List.append_assoc]
    exact .expression he ih

theorem grammar_literal {text : Text} (h : '{' ∉ text ∧ '}' ∉ text) : Grammar.Template text := by
  induction text with
  | nil => exact .nil
  | cons c text ih =>
    simp only [List.mem_cons, not_or] at h
    exact .literal (Ne.symm h.1.1) (Ne.symm h.2.1) (ih ⟨h.1.2, h.2.2⟩)

/-- **The texts of the grammar** are the texts of well-formed templates. -/
theorem grammar_iff_exists {s : Text} :
    Grammar.Template s ↔ ∃ t : Template, t.WellFormed ∧ t.toText = s := by
  constructor
  · intro h
    induction h with
    | nil => exact ⟨⟨[]⟩, Template.wellFormed_nil, rfl⟩
    | @literal c _ hopen hclose _ ih =>
      obtain ⟨t, ht, rfl⟩ := ih
      have hliteral : (Section.literal [c]).WellFormed := by
        simpa [Section.WellFormed] using ⟨Ne.symm hopen, Ne.symm hclose⟩
      exact ⟨⟨.literal [c] :: t.sections⟩, Template.wellFormed_cons.2 ⟨hliteral, ht⟩, rfl⟩
    | expression he _ ih =>
      obtain ⟨e, hwf, rfl⟩ := expressionText_iff_exists.1 he
      obtain ⟨t, ht, rfl⟩ := ih
      exact ⟨⟨.expression e :: t.sections⟩, Template.wellFormed_cons.2 ⟨hwf, ht⟩, rfl⟩
  · rintro ⟨⟨sections⟩, ht, rfl⟩
    induction sections with
    | nil => exact .nil
    | cons s sections ih =>
      obtain ⟨hwf, hsections⟩ := Template.wellFormed_cons.1 ht
      have hs : Grammar.Template s.toText := by
        cases s with
        | literal text => exact grammar_literal hwf
        | expression e =>
          have he := expressionText_iff_exists.2 ⟨e, hwf, rfl⟩
          simpa [Section.toText] using Grammar.Template.expression he .nil
      exact hs.append (ih hsections)

end UriTemplate
