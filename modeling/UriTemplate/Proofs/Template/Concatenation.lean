import UriTemplate.Proofs.Expansion.Sections
import UriTemplate.Proofs.Template.Refusal

/-!
# Templates one behind the other

A template that is read from its notation ends where its text ends, so what follows is read on its
own: its sections follow, with the literals at the boundary as one (`appendSections`), or its error
stands, moved by the bytes in front of it. Expansion is by sections, so the expansion of the whole
is the expansions of the parts.
-/

namespace UriTemplate
set_option autoImplicit false
open Template

/-- The sections of two templates, with a literal that ends the first and a literal that starts the
second as one. -/
def appendSections : List Section → List Section → List Section
  | [], sections' => sections'
  | [.literal text], .literal text' :: sections' => .literal (text ++ text') :: sections'
  | s :: sections, sections' => s :: appendSections sections sections'

/-- One template behind another. -/
def Template.append (t t' : Template) : Template := ⟨appendSections t.sections t'.sections⟩

/-! ## Reading -/

theorem appendSections_literal_cons {text : Text} {sections : List Section}
    (hhead : ∀ s ∈ sections.head?, s.isLiteral = false) (sections' : List Section) :
    appendSections (.literal text :: sections) sections' =
      joinLiteral text (appendSections sections sections') := by
  match sections, sections' with
  | [], [] => rfl
  | [], .literal text' :: sections' => rfl
  | [], .expression e :: sections' => rfl
  | .expression e :: sections, sections' => rfl
  | .literal text' :: sections, sections' => cases hhead _ rfl

/-- Sections that are written down are read again in front of any text, and leave its answer
alone. -/
theorem readSections_toText_append {sections : List Section}
    (h : (⟨sections⟩ : Template).IsNormal) (s : Text) :
    readSections (sections.flatMap Section.toText ++ s) =
      (readSections s).map (appendSections sections) := by
  induction sections with
  | nil =>
    show readSections s = _
    cases readSections s <;> rfl
  | cons s' sections ih =>
    rw [List.flatMap_cons, List.append_assoc]
    cases s' with
    | literal text =>
      obtain ⟨hne, htext, hhead, hsections⟩ := isNormal_literal_cons.1 h
      rw [Section.toText, readSections_text htext, ih hsections]
      cases readSections s with
      | error r => rfl
      | ok sections' =>
        show Except.ok (prependText text (appendSections sections sections')) = .ok _
        rw [prependText_eq_joinLiteral hne, appendSections_literal_cons hhead]
    | expression e =>
      obtain ⟨he, hsections⟩ := isNormal_expression_cons.1 h
      obtain ⟨w, hw⟩ : ∃ w, e.toText = '{' :: w := ⟨_, rfl⟩
      have hread : readExpression (w ++ (sections.flatMap Section.toText ++ s)) =
          .ok (e, sections.flatMap Section.toText ++ s) :=
        readExpression_eq_ok_iff.2 ⟨he, by rw [hw, List.cons_append]⟩
      rw [Section.toText, hw, List.cons_append, readSections_open, hread]
      show (readSections (sections.flatMap Section.toText ++ s)).map _ = _
      rw [ih hsections]
      cases readSections s <;> rfl

theorem readSections_append {s : Text} {t : Template} (h : parse s = .ok t) (s' : Text) :
    readSections (s ++ s') = (readSections s').map (appendSections t.sections) := by
  obtain ⟨rfl, hnormal⟩ := isNormal_of_parse h
  exact readSections_toText_append hnormal s'

theorem parse_append_of_ok {s s' : Text} {t t' : Template} (h : parse s = .ok t)
    (h' : parse s' = .ok t') : parse (s ++ s') = .ok (t.append t') := by
  have hread' : readSections s' = .ok t'.sections := by
    unfold parse at h'
    split at h' <;> cases h'
    assumption
  unfold parse
  rw [readSections_append h, hread']
  rfl

/-- An error is moved by what stands in front of the text, since it counts from the start and its
place is within the text. -/
theorem parse_append_of_error {s s' : Text} {t : Template} {e : SyntaxError}
    (h : parse s = .ok t) (h' : parse s' = .error e) :
    parse (s ++ s') = .error ⟨e.position + Text.utf8Length s, e.fault⟩ := by
  obtain ⟨r, hr, rfl⟩ := parse_eq_error_iff.1 h'
  obtain ⟨front, -, hs', -⟩ := readSections_refusal hr
  refine parse_eq_error_iff.2 ⟨r, by rw [readSections_append h, hr]; rfl, ?_⟩
  simp only [hs', Text.utf8Length_append, SyntaxError.mk.injEq, and_true]
  omega

/-! ## Expansion -/

theorem expandSections_append (context : Value) (sections sections' : List Section) :
    expandSections context (appendSections sections sections') =
      (expandSections context sections).bind fun text =>
        (expandSections context sections').map (text ++ ·) := by
  fun_induction appendSections sections sections' with
  | case1 sections' =>
    show expandSections context sections' = (expandSections context sections').map ([] ++ ·)
    cases expandSections context sections' <;> rfl
  | case2 text text' sections' =>
    rw [expandSections_literal, expandSections_literal, expandSections_literal]
    show _ = ((expandSections context sections').map (text' ++ ·)).map (text ++ [] ++ ·)
    cases expandSections context sections' <;> simp [Except.map]
  | case3 s sections sections' _ ih =>
    show (s.expand context).bind (fun head =>
        (expandSections context (appendSections sections sections')).bind fun rest =>
          .ok (head ++ rest)) =
      ((s.expand context).bind fun head => (expandSections context sections).bind fun rest =>
          .ok (head ++ rest)).bind fun text => (expandSections context sections').map (text ++ ·)
    rw [ih]
    cases s.expand context <;> cases expandSections context sections <;>
      cases expandSections context sections' <;> simp [Except.bind, Except.map]

theorem expandText_of_parse {s : Text} {t : Template} (h : parse s = .ok t) (context : Value) :
    expandText s context = (t.expand context).mapError .unsupported := by
  simp [expandText, h]

/-! ## Main statement -/

/-- **Concatenation.** Behind a template, a second one is read as if it stood alone, its sections
following those of the first, and the whole expands to the two expansions, or fails as the first of
them that fails; a text that is no template has the error that it has alone, with the bytes in front
of it added to its position. -/
theorem parse_append_and_expandText_append {s : Text} {t : Template} (h : parse s = .ok t)
    (s' : Text) :
    (∀ t', parse s' = .ok t' → parse (s ++ s') = .ok (t.append t') ∧
      ∀ context, expandText (s ++ s') context = do
        let text ← expandText s context
        let text' ← expandText s' context
        .ok (text ++ text')) ∧
    ∀ e, parse s' = .error e →
      parse (s ++ s') = .error ⟨e.position + Text.utf8Length s, e.fault⟩ := by
  refine ⟨fun t' h' => ⟨parse_append_of_ok h h', fun context => ?_⟩,
    fun e h' => parse_append_of_error h h'⟩
  have hexpand : (t.append t').expand context = (t.expand context).bind fun text =>
      (t'.expand context).map (text ++ ·) :=
    expandSections_append context t.sections t'.sections
  rw [expandText_of_parse (parse_append_of_ok h h'), expandText_of_parse h,
    expandText_of_parse h', hexpand]
  cases t.expand context <;> cases t'.expand context <;> rfl

/-- A literal on both sides of the boundary, a second template that fails where the first does not,
and a second text that is no template, behind a character of two bytes. -/
theorem concatenation_sample :
    let s := "é{x}b".toList
    let t : Template := ⟨[.literal "é".toList, .expression ⟨.simple, [.plain "x".toList]⟩,
      .literal "b".toList]⟩
    let t' : Template := ⟨[.literal "c".toList,
      .expression ⟨.simple, [.withMaxLength (.plain "y".toList) 2]⟩]⟩
    let text : Value := .map [("x".toList, .ofText "1".toList), ("y".toList, .ofText "234".toList)]
    let list : Value := .map [("y".toList, .ofTexts ["2".toList])]
    parse s = .ok t ∧ parse "c{y:2}".toList = .ok t' ∧
      parse (s ++ "c{y:2}".toList) = .ok ⟨[.literal "é".toList,
        .expression ⟨.simple, [.plain "x".toList]⟩, .literal "bc".toList,
        .expression ⟨.simple, [.withMaxLength (.plain "y".toList) 2]⟩]⟩ ∧
      expandText (s ++ "c{y:2}".toList) text = .ok "é1bc23".toList ∧
      expandText (s ++ "c{y:2}".toList) list =
        .error (.unsupported ⟨"y".toList, .limitedList 2⟩) ∧
      parse "c{y:0}".toList = .error ⟨4, .leadingZero "0".toList⟩ ∧
      parse (s ++ "c{y:0}".toList) = .error ⟨10, .leadingZero "0".toList⟩ := by
  intro s t t' text list
  have h : parse s = .ok t := by decide +kernel
  have h' : parse "c{y:2}".toList = .ok t' := by decide +kernel
  have herror : parse "c{y:0}".toList = .error ⟨4, .leadingZero "0".toList⟩ := by decide +kernel
  obtain ⟨hparse, hexpand⟩ := (parse_append_and_expandText_append h "c{y:2}".toList).1 t' h'
  have hmoved := (parse_append_and_expandText_append h "c{y:0}".toList).2 _ herror
  refine ⟨h, h', hparse, ?_, ?_, herror, hmoved⟩
  · rw [hexpand text, expandText_of_parse h, expandText_of_parse h']
    rfl
  · rw [hexpand list, expandText_of_parse h, expandText_of_parse h']
    rfl

end UriTemplate
