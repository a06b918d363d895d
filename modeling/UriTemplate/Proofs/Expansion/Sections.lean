import UriTemplate.Expansion
import UriTemplate.Proofs.Except
import UriTemplate.Proofs.Template.NormalForm

/-!
# Expansion section by section

The expansion of sections is the concatenation of theirs, or the error of the first that has one.
A literal contributes its text whatever the context, so dropping empty literals and joining
adjacent ones changes no expansion (`expand_normalize`). A property of texts that concatenation
keeps holds of an expansion if it holds of what the single sections write
(`expandSections_induction`).
-/

namespace UriTemplate
set_option autoImplicit false

variable (context : Value)

theorem expandSections_literal (text : Text) (sections : List Section) :
    expandSections context (.literal text :: sections) =
      (expandSections context sections).map (text ++ ·) := by
  cases h : expandSections context sections <;>
    simp [expandSections, Section.expand, h, bind, Except.bind, Except.map]

theorem expandSections_joinLiteral (text : Text) (sections : List Section) :
    expandSections context (joinLiteral text sections) =
      (expandSections context sections).map (text ++ ·) := by
  match sections with
  | [] => exact expandSections_literal context text []
  | .expression e :: sections => exact expandSections_literal context text _
  | .literal text' :: sections =>
    rw [joinLiteral, expandSections_literal, expandSections_literal]
    cases expandSections context sections <;> simp [Except.map]

theorem expandSections_mergeLiterals (sections : List Section) :
    expandSections context (mergeLiterals sections) = expandSections context sections := by
  induction sections with
  | nil => rfl
  | cons s sections ih =>
    cases s with
    | literal text =>
      rw [mergeLiterals, expandSections_joinLiteral, ih, expandSections_literal]
    | expression e => simp only [mergeLiterals, expandSections, ih]

theorem expandSections_dropEmptyLiterals (sections : List Section) :
    expandSections context (dropEmptyLiterals sections) = expandSections context sections := by
  induction sections with
  | nil => rfl
  | cons s sections ih =>
    by_cases hs : s = .literal []
    · subst hs
      have hdrop : dropEmptyLiterals (.literal [] :: sections) = dropEmptyLiterals sections := rfl
      rw [hdrop, ih, expandSections_literal]
      cases expandSections context sections <;> simp [Except.map]
    · have hkeep : dropEmptyLiterals (s :: sections) = s :: dropEmptyLiterals sections := by
        simp [dropEmptyLiterals, hs]
      rw [hkeep]
      simp only [expandSections, ih]

/-- The normal form expands as the template does, also when that fails. -/
theorem expand_normalize (t : Template) : t.normalize.expand context = t.expand context := by
  unfold Template.expand Template.normalize
  rw [expandSections_mergeLiterals, expandSections_dropEmptyLiterals]

theorem expandSections_induction {P : Text → Prop} {sections : List Section} {text : Text}
    (hnil : P []) (happend : ∀ s s', P s → P s' → P (s ++ s'))
    (hsections : ∀ s ∈ sections, ∀ text, s.expand context = .ok text → P text)
    (h : expandSections context sections = .ok text) : P text := by
  induction sections generalizing text with
  | nil =>
    cases h
    exact hnil
  | cons s sections ih =>
    obtain ⟨hs, hrest⟩ := List.forall_mem_cons.1 hsections
    obtain ⟨head, hhead, h'⟩ := bind_eq_ok_iff.1 h
    obtain ⟨tail, htail, htext⟩ := bind_eq_ok_iff.1 h'
    cases htext
    exact happend head tail (hs head hhead) (ih hrest htail)

end UriTemplate
