import UriTemplate.Proofs.Expansion.Sections
import UriTemplate.Proofs.Template.Reading

/-!
# Reading what is written and writing what is read

`Template.parse` accepts exactly the texts of the grammar, and what it answers is the one normal
template with the given text. A well-formed template that is written down and read again comes
back in its normal form, so it comes back unchanged exactly if it is normal already.
-/

namespace UriTemplate
set_option autoImplicit false
open Template

/-! ## One step of the reader of sections -/

theorem readSections_nil : readSections [] = .ok [] := by rw [readSections]

theorem readSections_open (s : Text) : readSections ('{' :: s) =
    (readExpression s).bind fun p => (readSections p.2).map (.expression p.1 :: ·) := by
  rw [readSections]
  simp only [if_true]
  split <;> rename_i h <;> simp [h, Except.bind]

theorem readSections_literal {c : Char} {s : Text} (hopen : c ≠ '{') (hclose : c ≠ '}') :
    readSections (c :: s) = (readSections s).map (consLiteral c) := by
  rw [readSections]
  simp [hopen, hclose]

/-! ## Literals -/

/-- The sections with a text put in front, character by character. -/
def prependText (text : Text) (sections : List Section) : List Section :=
  text.foldr consLiteral sections

theorem prependText_eq_joinLiteral {text : Text} (h : text ≠ []) (sections : List Section) :
    prependText text sections = joinLiteral text sections := by
  induction text with
  | nil => exact absurd rfl h
  | cons c text ih =>
    by_cases htext : text = []
    · subst htext
      cases sections with
      | nil => rfl
      | cons s sections => cases s <;> rfl
    · have hstep : prependText (c :: text) sections =
          consLiteral c (prependText text sections) := rfl
      rw [hstep, ih htext]
      cases sections with
      | nil => rfl
      | cons s sections => cases s <;> rfl

theorem readSections_text {text : Text} (h : '{' ∉ text ∧ '}' ∉ text) (s : Text) :
    readSections (text ++ s) = (readSections s).map (prependText text) := by
  induction text with
  | nil => cases h : readSections s <;> simp [h, Except.map, prependText]
  | cons c text ih =>
    simp only [List.mem_cons, not_or] at h
    rw [List.cons_append, readSections_literal (Ne.symm h.1.1) (Ne.symm h.2.1), ih ⟨h.1.2, h.2.2⟩]
    cases readSections s <;> rfl

/-! ## Written templates -/

theorem normalize_literal_cons (text : Text) (sections : List Section) :
    mergeLiterals (dropEmptyLiterals (.literal text :: sections)) =
      prependText text (mergeLiterals (dropEmptyLiterals sections)) := by
  by_cases h : text = []
  · subst h
    rfl
  · rw [prependText_eq_joinLiteral h]
    simp [dropEmptyLiterals, h, mergeLiterals]

/-- Sections that are written down and read again. -/
theorem readSections_toText {sections : List Section} (h : ∀ s ∈ sections, s.WellFormed) :
    readSections (sections.flatMap Section.toText) =
      .ok (mergeLiterals (dropEmptyLiterals sections)) := by
  induction sections with
  | nil => exact readSections_nil
  | cons s sections ih =>
    have hs := h s (by simp)
    have hsections := ih fun s' hs' => h s' (by simp [hs'])
    rw [List.flatMap_cons]
    cases s with
    | literal text =>
      rw [Section.toText, readSections_text hs, hsections, normalize_literal_cons]
      rfl
    | expression e =>
      have htext : ∃ w, e.toText = '{' :: w := ⟨_, rfl⟩
      obtain ⟨w, hw⟩ := htext
      have hread : readExpression (w ++ sections.flatMap Section.toText) =
          .ok (e, sections.flatMap Section.toText) :=
        readExpression_eq_ok_iff.2 ⟨hs, by rw [hw, List.cons_append]⟩
      rw [Section.toText, hw, List.cons_append, readSections_open, hread]
      simp [Except.bind, hsections, Except.map, dropEmptyLiterals, mergeLiterals]

theorem parse_toText {t : Template} (h : t.WellFormed) : parse t.toText = .ok t.normalize := by
  unfold parse Template.toText
  rw [readSections_toText h]
  rfl

/-! ## Read templates -/

theorem Template.IsNormal.consLiteral {c : Char} {sections : List Section} (hopen : c ≠ '{')
    (hclose : c ≠ '}') (h : (⟨sections⟩ : Template).IsNormal) :
    (⟨Template.consLiteral c sections⟩ : Template).IsNormal := by
  have hc : ∀ text, (Section.literal text).WellFormed →
      (Section.literal (c :: text)).WellFormed := by
    rintro text ⟨hopen', hclose'⟩
    simpa [Section.WellFormed] using ⟨⟨Ne.symm hopen, hopen'⟩, ⟨Ne.symm hclose, hclose'⟩⟩
  have hnil : (Section.literal []).WellFormed := by simp [Section.WellFormed]
  cases sections with
  | nil => exact isNormal_literal_cons.2 ⟨by simp, hc [] hnil, by simp, h⟩
  | cons s sections =>
    cases s with
    | literal text =>
      obtain ⟨-, htext, hhead, hsections⟩ := isNormal_literal_cons.1 h
      exact isNormal_literal_cons.2 ⟨by simp, hc text htext, hhead, hsections⟩
    | expression e =>
      exact isNormal_literal_cons.2 ⟨by simp, hc [] hnil, by simp [Section.isLiteral], h⟩

theorem toText_consLiteral (c : Char) (sections : List Section) :
    (consLiteral c sections).flatMap Section.toText = c :: sections.flatMap Section.toText := by
  match sections with
  | [] => rfl
  | .literal text :: sections => rfl
  | .expression e :: sections => rfl

/-- Sections that are read are normal and are written as they were. -/
theorem isNormal_of_readSections {s : Text} {sections : List Section}
    (h : readSections s = .ok sections) :
    sections.flatMap Section.toText = s ∧ (⟨sections⟩ : Template).IsNormal := by
  fun_induction readSections s generalizing sections with
  | case1 =>
    cases h
    exact ⟨rfl, isNormal_nil⟩
  | case3 s e rest hread _ ih =>
    obtain ⟨sections', hr, he⟩ := map_eq_ok_iff.1 h
    cases he
    obtain ⟨hwf, hs⟩ := readExpression_eq_ok_iff.1 hread
    obtain ⟨rfl, hnormal⟩ := ih hr
    refine ⟨?_, isNormal_expression_cons.2 ⟨hwf, hnormal⟩⟩
    rw [hs]
    rfl
  | case5 c s hopen hclose ih =>
    obtain ⟨sections', hr, he⟩ := map_eq_ok_iff.1 h
    subst he
    obtain ⟨rfl, hnormal⟩ := ih hr
    exact ⟨toText_consLiteral c sections', hnormal.consLiteral hopen hclose⟩
  | case2 | case4 => cases h

theorem isNormal_of_parse {s : Text} {t : Template} (h : parse s = .ok t) :
    t.toText = s ∧ t.IsNormal := by
  unfold parse at h
  split at h
  · rename_i sections hread
    cases h
    exact isNormal_of_readSections hread
  · cases h

/-! ## Main statements -/

/-- **Reading is exact**: a text is a template if and only if the grammar derives it, and the
template that is read is normal and is written as that very text. -/
theorem parse_iff_grammar_lossless (s : Text) :
    ((∃ t, parse s = .ok t) ↔ Grammar.Template s) ∧
      ∀ t, parse s = .ok t → t.toText = s ∧ t.IsNormal := by
  refine ⟨⟨?_, ?_⟩, fun t h => isNormal_of_parse h⟩
  · rintro ⟨t, h⟩
    obtain ⟨rfl, hnormal⟩ := isNormal_of_parse h
    exact grammar_iff_exists.2 ⟨t, hnormal.wellFormed, rfl⟩
  · intro h
    obtain ⟨t, ht, rfl⟩ := grammar_iff_exists.1 h
    exact ⟨t.normalize, parse_toText ht⟩

/-- A percent sign in a literal, a triplet and a dot in a name, and both modifiers. -/
theorem grammar_derives_sample :
    Grammar.Template "a%{?x.%C3y:12,z*}".toList ∧
      ∃ t, parse "a%{?x.%C3y:12,z*}".toList = .ok t ∧ t.varSpecs.length = 2 ∧
        t.toText = "a%{?x.%C3y:12,z*}".toList ∧ t.IsNormal := by
  have h : parse "a%{?x.%C3y:12,z*}".toList = .ok ⟨[.literal "a%".toList,
      .expression ⟨.query,
        [⟨"x.%C3y".toList, some (.maxLength 12)⟩, ⟨['z'], some .explode⟩]⟩]⟩ := by
    decide +kernel
  obtain ⟨hgrammar, hlossless⟩ := parse_iff_grammar_lossless "a%{?x.%C3y:12,z*}".toList
  exact ⟨hgrammar.1 ⟨_, h⟩, _, h, rfl, hlossless _ h⟩

/-- **Writing and reading**: a well-formed template comes back in its normal form, which expands
like it in every context, and any template comes back unchanged exactly if it is well-formed and
its own normal form. -/
theorem parse_toText_eq_normalize (t : Template) :
    (t.WellFormed → parse t.toText = .ok t.normalize ∧
      ∀ context, t.normalize.expand context = t.expand context) ∧
    (parse t.toText = .ok t ↔ t.WellFormed ∧ t.normalize = t) := by
  refine ⟨fun h => ⟨parse_toText h, fun context => expand_normalize context t⟩, ?_, ?_⟩
  · intro h
    have hwf := (isNormal_of_parse h).2.wellFormed
    rw [parse_toText hwf] at h
    exact ⟨hwf, Except.ok.inj h⟩
  · rintro ⟨hwf, hnormal⟩
    rw [parse_toText hwf, hnormal]

/-- Three literals side by side, one of them empty, in front of an expression. -/
theorem normalize_sample :
    let t : Template := ⟨[.literal ['a'], .literal [], .literal ['b'],
      .expression ⟨.simple, [⟨['x'], some (.maxLength 9999)⟩]⟩]⟩
    t.WellFormed ∧ parse t.toText = .ok ⟨[.literal ['a', 'b'],
      .expression ⟨.simple, [⟨['x'], some (.maxLength 9999)⟩]⟩]⟩ := by
  intro t
  have hwf : t.WellFormed := by
    have hname : Grammar.VarName ['x'] := .mk (.letter (by decide)) .nil
    have hspec : (⟨['x'], some (.maxLength 9999)⟩ : VarSpec).WellFormed :=
      ⟨hname, by simp [VarSpec.maxLength?, maxLengthLimit]⟩
    have he : (⟨.simple, [⟨['x'], some (.maxLength 9999)⟩]⟩ : Expression).WellFormed :=
      ⟨by simp, by simpa using hspec⟩
    simpa [t, Template.WellFormed, Section.WellFormed] using he
  exact ⟨hwf, ((parse_toText_eq_normalize t).1 hwf).1⟩

end UriTemplate
