import UriTemplate.Proofs.Expansion.Legality

/-!
# Expansions are not templates

No brace gets into an expansion: literals have none, since a brace would start or end an
expression, and what an expression writes is legal in a URI, where braces do not occur. So an
expansion that is read as a template is a literal, or nothing, and expands to itself in every
context: what a value holds is never taken for an expression.
-/

namespace UriTemplate
set_option autoImplicit false
open Template Uri

/-- A text without braces. -/
def BraceFree (text : Text) : Prop := '{' ∉ text ∧ '}' ∉ text

theorem BraceFree.append {s s' : Text} (h : BraceFree s) (h' : BraceFree s') :
    BraceFree (s ++ s') := by
  unfold BraceFree at *
  simp only [List.mem_append, not_or]
  exact ⟨⟨h.1, h'.1⟩, ⟨h.2, h'.2⟩⟩

/-- The characters of legal text are percent signs and plain characters. -/
theorem percent_or_plain_of_legal {s : Text} (h : Legal s) :
    ∀ c ∈ s, c = '%' ∨ IsUnreserved c ∨ IsReserved c := by
  induction h with
  | nil => simp
  | plain hc _ ih => exact List.forall_mem_cons.2 ⟨.inr hc, ih⟩
  | triplet ha hb _ ih =>
    have hdigit : ∀ d, Grammar.IsHexDigit d → d = '%' ∨ IsUnreserved d ∨ IsReserved d :=
      fun d hd => .inr (.inl (isUnreserved_of_isHexDigit hd))
    exact List.forall_mem_cons.2 ⟨.inl rfl,
      List.forall_mem_cons.2 ⟨hdigit _ ha, List.forall_mem_cons.2 ⟨hdigit _ hb, ih⟩⟩⟩

theorem braceFree_of_legal {s : Text} (h : Legal s) : BraceFree s := by
  have hopen : ¬('{' = '%' ∨ IsUnreserved '{' ∨ IsReserved '{') := by decide
  have hclose : ¬('}' = '%' ∨ IsUnreserved '}' ∨ IsReserved '}') := by decide
  exact ⟨fun hmem => hopen (percent_or_plain_of_legal h _ hmem),
    fun hmem => hclose (percent_or_plain_of_legal h _ hmem)⟩

/-- A well-formed section writes no brace, whatever the values are. -/
theorem braceFree_of_section {s : Section} {context : Value} {text : Text} (hs : s.WellFormed)
    (h : s.expand context = .ok text) : BraceFree text := by
  cases s with
  | literal literal =>
    cases h
    exact hs
  | expression e =>
    have hnames : ∀ spec ∈ e.varSpecs, Legal spec.name :=
      fun spec hspec => legal_varName (hs.varSpecs spec hspec).name
    exact braceFree_of_legal (legal_expandExpression hnames h)

theorem braceFree_of_expand {t : Template} {context : Value} {text : Text} (ht : t.WellFormed)
    (h : t.expand context = .ok text) : BraceFree text := by
  refine expandSections_induction context ⟨by simp, by simp⟩ (fun _ _ hs hs' => hs.append hs') ?_ h
  intro s hs text htext
  exact braceFree_of_section (ht s hs) htext

theorem expandText_eq_ok_iff {s : Text} {context : Value} {text : Text} :
    expandText s context = .ok text ↔ ∃ t, parse s = .ok t ∧ t.expand context = .ok text := by
  unfold expandText
  cases parse s with
  | error e => simp
  | ok t => simp [mapError_eq_ok_iff]

/-- A text without braces stands for itself. -/
theorem expandText_of_braceFree {text : Text} (h : BraceFree text) (context : Value) :
    expandText text context = .ok text := by
  have hwf : Template.WellFormed ⟨[.literal text]⟩ :=
    wellFormed_cons.2 ⟨h, wellFormed_nil⟩
  have hparse : parse text = .ok (Template.normalize ⟨[.literal text]⟩) := by
    have htext : Template.toText ⟨[.literal text]⟩ = text := List.append_nil text
    rw [← parse_toText hwf, htext]
  refine expandText_eq_ok_iff.2 ⟨_, hparse, ?_⟩
  rw [expand_normalize]
  show Except.ok (text ++ []) = _
  rw [List.append_nil]

/-- **An expansion is never expanded again**: it has no braces, and as a template it stands for
itself in every context. -/
theorem expandText_of_expansion {s : Text} {context : Value} {text : Text}
    (h : expandText s context = .ok text) :
    '{' ∉ text ∧ '}' ∉ text ∧ ∀ context', expandText text context' = .ok text := by
  obtain ⟨t, hparse, hexpand⟩ := expandText_eq_ok_iff.1 h
  have hfree : BraceFree text := braceFree_of_expand (isNormal_of_parse hparse).2.wellFormed hexpand
  exact ⟨hfree.1, hfree.2, fun context' => expandText_of_braceFree hfree context'⟩

/-- Values that are templates themselves, in reserved mode, as a key, and cut inside. -/
theorem expansion_of_braces_sample :
    let context : Value := .map [("x".toList, .ofText "{x}".toList),
      ("m".toList, .map [("\x7d\x7b".toList, .ofText "{x*}".toList)])]
    let output := "a%7Bx%7D?%7D%7B=%7Bx*%7D&x=%7Bx".toList
    expandText "a{+x}{?m*,x:2}".toList context = .ok output ∧
      ∀ context', expandText output context' = .ok output := by
  intro context output
  have h : expandText "a{+x}{?m*,x:2}".toList context = .ok output := by decide +kernel
  exact ⟨h, (expandText_of_expansion h).2.2⟩

end UriTemplate
