import UriTemplate.Proofs.Expansion.Pieces
import UriTemplate.Proofs.Template.RoundTrip
import UriTemplate.Proofs.Uri.Legal

/-!
# Expansions are legal in a URI

Legal texts can be put one behind the other, and everything an expansion is put together from is
legal on its own: operators' first characters, separators, equals signs and commas are reserved or
unreserved characters, names have the alphabet of the grammar, and encodings are legal whatever was
encoded, so it makes no difference where a text was cut before. What remains are the literals, which
are copied: with legal literals the whole expansion is legal (`legal_expandSections`).
-/

namespace UriTemplate
set_option autoImplicit false
open Template Uri

/-! ## Pieces -/

theorem legal_singleton {c : Char} (h : IsUnreserved c ∨ IsReserved c) : Legal [c] := .plain h .nil

theorem legal_first (op : Operator) : Legal op.first := by
  cases op
  case simple | reserved => exact .nil
  all_goals exact legal_singleton (by decide)

theorem plain_separator (op : Operator) :
    IsUnreserved op.separator ∨ IsReserved op.separator := by
  cases op <;> decide

theorem legal_ifEmpty (op : Operator) : Legal op.ifEmpty := by
  cases op
  case query | continuation => exact legal_singleton (by decide)
  all_goals exact .nil

theorem legal_intercalate {c : Char} (hc : IsUnreserved c ∨ IsReserved c) {texts : List Text}
    (h : ∀ text ∈ texts, Legal text) : Legal (List.intercalate [c] texts) := by
  induction texts with
  | nil => exact .nil
  | cons text texts ih =>
    obtain ⟨htext, htexts⟩ := List.forall_mem_cons.1 h
    by_cases hnil : texts = []
    · subst hnil
      rwa [List.intercalate_singleton]
    · rw [List.intercalate_cons_of_ne_nil hnil]
      exact (htext.append (legal_singleton hc)).append (ih htexts)

section Piece

variable {op : Operator} {name value : Text}

theorem legal_equals (hname : Legal name) (hvalue : Legal value) : Legal (name ++ '=' :: value) :=
  hname.append (.plain (by decide) hvalue)

theorem legal_named (hname : Legal name) (hvalue : Legal value) : Legal (named op name value) := by
  unfold named
  split
  · exact hname.append (legal_ifEmpty op)
  · exact legal_equals hname hvalue

theorem legal_nameIfWanted (hname : Legal name) (hvalue : Legal value) :
    Legal (nameIfWanted op name value) := by
  unfold nameIfWanted
  split
  · exact legal_named hname hvalue
  · exact hvalue

theorem legal_pairText (hname : Legal name) (hvalue : Legal value) :
    Legal (VarSpec.pairText op name value) := by
  unfold VarSpec.pairText
  split
  · exact legal_named hname hvalue
  · exact legal_equals hname hvalue

/-- **The pieces of a variable** with a legal name are legal, whatever its value. -/
theorem legal_pieces {spec : VarSpec} (hname : Legal spec.name) (shape : Shape) :
    ∀ piece ∈ spec.pieces op shape, Legal piece := by
  have hencode := legal_encode op.allowsReserved
  have hcomma : IsUnreserved ',' ∨ IsReserved ',' := by decide
  cases shape with
  | undefined => simp [VarSpec.pieces]
  | scalar text =>
    simp only [VarSpec.pieces, List.forall_mem_singleton]
    exact legal_nameIfWanted hname (hencode _)
  | list items =>
    simp only [VarSpec.pieces]
    split
    · rw [List.forall_mem_map]
      exact fun item _ => legal_nameIfWanted hname (hencode item)
    · rename_i hexplode
      simp only [List.forall_mem_singleton, VarSpec.listUnit, hexplode]
      refine legal_nameIfWanted hname (legal_intercalate hcomma ?_)
      rw [List.forall_mem_map]
      exact fun item _ => hencode item
  | pairs entries =>
    simp only [VarSpec.pieces]
    split
    · rw [List.forall_mem_map]
      exact fun e _ => legal_pairText (hencode e.1) (hencode e.2)
    · rename_i hexplode
      simp only [List.forall_mem_singleton, VarSpec.pairsUnit, hexplode]
      refine legal_nameIfWanted hname (legal_intercalate hcomma fun member hmember => ?_)
      obtain ⟨e, -, he⟩ := List.mem_flatMap.1 hmember
      simp only [List.mem_cons, List.not_mem_nil, or_false] at he
      rcases he with rfl | rfl
      · exact hencode e.1
      · exact hencode e.2

end Piece

/-! ## Sections -/

/-- A section without illegal text: in its literal, or in the names of its variables. -/
def Section.HasLegalText : Section → Prop
  | .literal text => Legal text
  | .expression e => ∀ spec ∈ e.varSpecs, Legal spec.name

theorem legal_expandExpression {e : Expression} {context : Value} {text : Text}
    (hnames : ∀ spec ∈ e.varSpecs, Legal spec.name) (h : e.expand context = .ok text) :
    Legal text := by
  have hpieces : ∀ piece ∈ piecesOf e.operator context e.varSpecs, Legal piece := by
    intro piece hpiece
    obtain ⟨spec, hspec, hmem⟩ := List.mem_flatMap.1 hpiece
    exact legal_pieces (hnames spec hspec) _ piece hmem
  rw [expand_eq_pieces h, joinUnits]
  split
  · exact .nil
  · exact (legal_first e.operator).append (legal_intercalate (plain_separator e.operator) hpieces)

theorem legal_expandSections {sections : List Section} {context : Value} {text : Text}
    (hsections : ∀ s ∈ sections, s.HasLegalText)
    (h : expandSections context sections = .ok text) : Legal text := by
  refine expandSections_induction context .nil (fun _ _ hs hs' => hs.append hs') ?_ h
  intro s hs text htext
  have hlegal := hsections s hs
  cases s with
  | literal literal =>
    cases htext
    exact hlegal
  | expression e => exact legal_expandExpression hlegal htext

/-! ## Main statement -/

/-- **Expansions are legal in a URI.** If the literals of a template that was read are legal, so is
every expansion of it: it consists of unreserved and reserved characters and of percent triplets,
all its characters are visible ASCII, and every percent sign has its two hexadecimal digits. -/
theorem expand_legal_of_legal_literals {s : Text} {t : Template} {context : Value} {text : Text}
    (hparse : parse s = .ok t)
    (hliterals : ∀ literal, .literal literal ∈ t.sections → Legal literal)
    (h : t.expand context = .ok text) :
    Legal text ∧ (∀ c ∈ text, 0x20 < c.toNat ∧ c.toNat < 0x7F) ∧ PercentsComplete text := by
  have hsections : ∀ s ∈ t.sections, s.HasLegalText := by
    intro s hs
    cases s with
    | literal literal => exact hliterals literal hs
    | expression e =>
      have hwf : e.WellFormed := (isNormal_of_parse hparse).2.wellFormed _ hs
      exact fun spec hspec => legal_varName (hwf.varSpecs spec hspec).name
  have hlegal := legal_expandSections hsections h
  exact ⟨hlegal, hlegal.visible, hlegal.percentsComplete⟩

/-- A triplet in a literal and in a name, a text with a stray percent sign that is cut behind a
triplet, and a key and a value that have to be escaped. -/
theorem legal_sample :
    let context : Value := .map [("x%C3".toList, .ofText "%4%20%41 é".toList),
      ("m".toList, .map [("é ".toList, .ofText "%".toList)])]
    let t : Template := ⟨[.literal ['a', '%', '2', 'F'],
      .expression ⟨.reserved, [⟨"x%C3".toList, some (.maxLength 3)⟩]⟩,
      .expression ⟨.parameter, [⟨"m".toList, some .explode⟩, ⟨"x%C3".toList, none⟩]⟩]⟩
    let output := "a%2F%254%20;%C3%A9+=%25;x%C3=%254%2520%2541+%C3%A9".toList
    parse "a%2F{+x%C3:3}{;m*,x%C3}".toList = .ok t ∧ t.expand context = .ok output ∧
      Legal output := by
  intro context t output
  have hparse : parse "a%2F{+x%C3:3}{;m*,x%C3}".toList = .ok t := by decide +kernel
  have hexpand : t.expand context = .ok output := by decide +kernel
  have hliteral : Legal ['a', '%', '2', 'F'] :=
    .plain (by decide)
      (.triplet (.inl ⟨by decide, by decide⟩) (.inr (.inl ⟨by decide, by decide⟩)) .nil)
  have hliterals : ∀ literal, .literal literal ∈ t.sections → Legal literal := by
    intro literal hmem
    simp only [t, List.mem_cons, Section.literal.injEq, List.not_mem_nil, or_false,
      reduceCtorEq] at hmem
    rwa [hmem]
  exact ⟨hparse, hexpand, (expand_legal_of_legal_literals hparse hliterals hexpand).1⟩

end UriTemplate
