import Mathlib.Data.List.Forall2
import UriTemplate.Proofs.Expansion.Pieces
import UriTemplate.Proofs.Percent.FormDecoding
import UriTemplate.Proofs.Template.Names

/-!
# No value can bring a delimiter

An expression with one of the operators for path segments, parameters and queries is read back
from its expansion: the output is split at the separator, each piece at its first equals sign, the
value of a composite in one piece at its commas, and texts are form-decoded. The reader below knows
the operator and the kind of each piece, and nothing of the values; `expand_splits_into_contents`
says that it finds the names, the keys and the resolved texts, piece by piece.

What makes it work is that plain encodings and names share one alphabet, in which no separator, no
equals sign and no comma occurs.
-/

namespace UriTemplate
set_option autoImplicit false

/-! ## Reading pieces -/

/-- What a piece of an expansion stands for. Except for a pair of its own, it has the variable's
name as its label if the operator writes names. -/
inductive Content
  /-- A text, or an item of an exploded list. -/
  | text (label : Option Text) (text : Text)
  /-- A list in one piece. -/
  | list (label : Option Text) (items : List Text)
  /-- A map in one piece. -/
  | pairs (label : Option Text) (entries : List (Text × Text))
  /-- A pair of an exploded map. -/
  | entry (key value : Text)
deriving DecidableEq

/-- The four kinds of pieces. -/
inductive ContentKind
  | text
  | list
  | pairs
  | entry
deriving DecidableEq

/-- The kind of a content. -/
def Content.kind : Content → ContentKind
  | .text .. => .text
  | .list .. => .list
  | .pairs .. => .pairs
  | .entry .. => .entry

/-- The parts of a piece before and behind its first equals sign; without one, the second is
empty. -/
def splitLabel (piece : Text) : Text × Text := (splitFirst? (· = '=') piece).getD (piece, [])

/-- The label of a piece, if it has one, and the rest. -/
def unlabel (isNamed : Bool) (piece : Text) : Option Text × Text :=
  if isNamed then (some (splitLabel piece).1, (splitLabel piece).2) else (none, piece)

/-- The texts between commas. -/
def readMembers? (value : Text) : Option (List Text) := (value.splitOn ',').mapM Percent.formDecode

/-- Keys and values that follow each other, as pairs. -/
def pairUp? : List Text → Option (List (Text × Text))
  | [] => some []
  | [_] => none
  | key :: value :: rest => (pairUp? rest).map ((key, value) :: ·)

/-- The content of a piece of a kind. -/
def ContentKind.read? (isNamed : Bool) (piece : Text) : ContentKind → Option Content
  | .text => (Percent.formDecode (unlabel isNamed piece).2).map (.text (unlabel isNamed piece).1)
  | .list => (readMembers? (unlabel isNamed piece).2).map (.list (unlabel isNamed piece).1)
  | .pairs =>
    ((readMembers? (unlabel isNamed piece).2).bind pairUp?).map (.pairs (unlabel isNamed piece).1)
  | .entry => do
    let key ← Percent.formDecode (splitLabel piece).1
    let value ← Percent.formDecode (splitLabel piece).2
    some (.entry key value)

/-- A piece reads as a content: the reader for the content's kind finds it. -/
def ReadsAs (isNamed : Bool) (piece : Text) (content : Content) : Prop :=
  content.kind.read? isNamed piece = some content

/-! ## The contents of a variable -/

namespace VarSpec

/-- The text that a length leaves of a text. -/
def keptText (spec : VarSpec) (text : Text) : Text :=
  match spec.maxLength? with
  | some length => text.take length
  | none => text

/-- What a variable of a shape contributes: one content for each member of an exploded value, one
for any other defined value. -/
def contents (op : Operator) (spec : VarSpec) : Shape → List Content
  | .undefined => []
  | .scalar text => [.text (if op.isNamed then some spec.name else none) (spec.keptText text)]
  | .list items =>
    if spec.isExploded then items.map (.text (if op.isNamed then some spec.name else none))
    else [.list (if op.isNamed then some spec.name else none) items]
  | .pairs entries =>
    if spec.isExploded then entries.map fun e => .entry e.1 e.2
    else [.pairs (if op.isNamed then some spec.name else none) entries]

end VarSpec

/-- The contents of variables, in order. -/
def contentsOf (op : Operator) (context : Value) (specs : List VarSpec) : List Content :=
  specs.flatMap fun spec => spec.contents op (context.shapeOf spec.name)

/-! ## Pieces are read back -/

theorem splitLabel_append {label : Text} (h : '=' ∉ label) (value : Text) :
    splitLabel (label ++ '=' :: value) = (label, value) := by
  rw [splitLabel, splitFirst?_append (decide_eq_false_of_not_mem h) (by decide)]
  rfl

theorem splitLabel_of_not_mem {label : Text} (h : '=' ∉ label) :
    splitLabel label = (label, []) := by
  rw [splitLabel, splitFirst?_eq_none (decide_eq_false_of_not_mem h)]
  rfl

/-- A label is found again, also where the mark of an empty value is no equals sign. -/
theorem splitLabel_named (op : Operator) {label : Text} (h : '=' ∉ label) (value : Text) :
    splitLabel (named op label value) = (label, value) := by
  unfold named
  split
  · rename_i hempty
    subst hempty
    have hmark : op.ifEmpty = [] ∨ op.ifEmpty = ['='] := by cases op <;> decide
    rcases hmark with hmark | hmark <;> rw [hmark]
    · rw [List.append_nil, splitLabel_of_not_mem h]
    · exact splitLabel_append h []
  · exact splitLabel_append h value

theorem unlabel_nameIfWanted (op : Operator) {label : Text} (h : '=' ∉ label) (value : Text) :
    unlabel op.isNamed (nameIfWanted op label value) =
      (if op.isNamed then some label else none, value) := by
  unfold unlabel nameIfWanted
  split
  · rw [splitLabel_named op h]
  · rfl

theorem splitLabel_pairText (op : Operator) {key : Text} (h : '=' ∉ key) (value : Text) :
    splitLabel (VarSpec.pairText op key value) = (key, value) := by
  unfold VarSpec.pairText
  split
  · exact splitLabel_named op h value
  · exact splitLabel_append h value

theorem mapM_formDecode (texts : List Text) :
    (texts.map (Percent.encode false)).mapM Percent.formDecode = some texts := by
  induction texts with
  | nil => rfl
  | cons text texts ih => simp [Percent.formDecode_encode, ih]

theorem readMembers?_join {texts : List Text} (h : texts ≠ []) :
    readMembers? (List.intercalate [','] (texts.map (Percent.encode false))) = some texts := by
  have hcomma : ∀ member ∈ texts.map (Percent.encode false), ',' ∉ member := by
    intro member hmember
    obtain ⟨text, -, rfl⟩ := List.mem_map.1 hmember
    exact Percent.not_mem_encode (by decide)
  rw [readMembers?, List.splitOn_intercalate ',' hcomma (by simpa using h), mapM_formDecode]

theorem pairUp?_flatMap (entries : List (Text × Text)) :
    pairUp? (entries.flatMap fun e => [e.1, e.2]) = some entries := by
  induction entries with
  | nil => rfl
  | cons e entries ih => simp [pairUp?, ih]

theorem truncate_false (count : Nat) (text : Text) :
    Percent.truncate false count text = text.take count := by
  induction text generalizing count with
  | nil => cases count <;> simp [Percent.truncate]
  | cons c text ih => cases count <;> simp [Percent.truncate, ih]

/-! ## Pieces have no separator -/

theorem not_mem_named {op : Operator} {name value : Text} {c : Char} (hc : c ≠ '=')
    (hname : c ∉ name) (hvalue : c ∉ value) : c ∉ named op name value := by
  unfold named
  split
  · cases op <;> simp [Operator.ifEmpty, hname, hc]
  · simp [hname, hvalue, hc]

theorem not_mem_nameIfWanted {op : Operator} {name value : Text} {c : Char} (hc : c ≠ '=')
    (hname : c ∉ name) (hvalue : c ∉ value) : c ∉ nameIfWanted op name value := by
  unfold nameIfWanted
  split
  · exact not_mem_named hc hname hvalue
  · exact hvalue

theorem not_mem_pairText {op : Operator} {key value : Text} {c : Char} (hc : c ≠ '=')
    (hkey : c ∉ key) (hvalue : c ∉ value) : c ∉ VarSpec.pairText op key value := by
  unfold VarSpec.pairText
  split
  · exact not_mem_named hc hkey hvalue
  · simp [hkey, hvalue, hc]

/-- The operators whose separator occurs neither in plain encodings nor inside a piece. -/
structure Operator.IsDelimiting (op : Operator) : Prop where
  plain : op.allowsReserved = false
  separator : Percent.isPlainOutput op.separator = false
  notEquals : op.separator ≠ '='
  notComma : op.separator ≠ ','
  first : op.first ≠ []

theorem isDelimiting_of_mem {op : Operator}
    (h : op ∈ [Operator.path, .parameter, .query, .continuation]) : op.IsDelimiting := by
  simp only [List.mem_cons, List.not_mem_nil, or_false] at h
  rcases h with rfl | rfl | rfl | rfl <;> constructor <;> decide

section Delimiting

variable {op : Operator} {spec : VarSpec}

/-- A piece can be told from its neighbours and reads as its content. -/
def ReadsBack (op : Operator) (piece : Text) (content : Content) : Prop :=
  op.separator ∉ piece ∧ ReadsAs op.isNamed piece content

theorem separator_not_mem_join (hop : op.IsDelimiting) (texts : List Text) :
    op.separator ∉ List.intercalate [','] (texts.map (Percent.encode false)) := by
  refine not_mem_intercalate hop.notComma ?_
  intro member hmember
  obtain ⟨text, -, rfl⟩ := List.mem_map.1 hmember
  exact Percent.not_mem_encode hop.separator

section Named

variable (hop : op.IsDelimiting) (hname : Grammar.VarName spec.name)
include hop hname

/-- A value behind the variable's name has no separator if it has none itself, and is found there
again. -/
theorem separator_not_mem_and_unlabel {value : Text} (hvalue : op.separator ∉ value) :
    op.separator ∉ nameIfWanted op spec.name value ∧
      unlabel op.isNamed (nameIfWanted op spec.name value) =
        (if op.isNamed then some spec.name else none, value) := by
  have hsep : op.separator ∉ spec.name := not_mem_varName hname hop.separator
  have hequals : '=' ∉ spec.name := not_mem_varName hname (by decide)
  exact ⟨not_mem_nameIfWanted hop.notEquals hsep hvalue, unlabel_nameIfWanted op hequals value⟩

theorem readsBack_text (text : Text) :
    ReadsBack op (nameIfWanted op spec.name (Percent.encode false text))
      (.text (if op.isNamed then some spec.name else none) text) := by
  obtain ⟨hsep, hread⟩ :=
    separator_not_mem_and_unlabel hop hname (Percent.not_mem_encode (s := text) hop.separator)
  refine ⟨hsep, ?_⟩
  simp only [ReadsAs, Content.kind, ContentKind.read?, hread, Percent.formDecode_encode,
    Option.map_some]

theorem readsBack_list {items : List Text} (h : items ≠ []) :
    ReadsBack op
      (nameIfWanted op spec.name (List.intercalate [','] (items.map (Percent.encode false))))
      (.list (if op.isNamed then some spec.name else none) items) := by
  obtain ⟨hsep, hread⟩ :=
    separator_not_mem_and_unlabel hop hname (separator_not_mem_join hop items)
  refine ⟨hsep, ?_⟩
  simp only [ReadsAs, Content.kind, ContentKind.read?, hread, readMembers?_join h, Option.map_some]

theorem readsBack_pairs {entries : List (Text × Text)} (h : entries ≠ []) :
    ReadsBack op
      (nameIfWanted op spec.name (List.intercalate [',']
        (entries.flatMap fun e => [Percent.encode false e.1, Percent.encode false e.2])))
      (.pairs (if op.isNamed then some spec.name else none) entries) := by
  have hmembers : (entries.flatMap fun e => [Percent.encode false e.1, Percent.encode false e.2]) =
      (entries.flatMap fun e => [e.1, e.2]).map (Percent.encode false) := by
    rw [List.map_flatMap]
    rfl
  have hne : (entries.flatMap fun e => [e.1, e.2]) ≠ [] := by
    obtain ⟨e, entries', rfl⟩ := List.exists_cons_of_ne_nil h
    simp
  rw [hmembers]
  obtain ⟨hsep, hread⟩ :=
    separator_not_mem_and_unlabel hop hname (separator_not_mem_join hop _)
  refine ⟨hsep, ?_⟩
  simp only [ReadsAs, Content.kind, ContentKind.read?, hread, readMembers?_join hne,
    Option.bind_some, pairUp?_flatMap, Option.map_some]

end Named

theorem readsBack_entry (hop : op.IsDelimiting) (key value : Text) :
    ReadsBack op (VarSpec.pairText op (Percent.encode false key) (Percent.encode false value))
      (.entry key value) := by
  have hkey : '=' ∉ Percent.encode false key := Percent.not_mem_encode (by decide)
  have hsep : ∀ text, op.separator ∉ Percent.encode false text :=
    fun text => Percent.not_mem_encode hop.separator
  refine ⟨not_mem_pairText hop.notEquals (hsep key) (hsep value), ?_⟩
  simp only [ReadsAs, Content.kind, ContentKind.read?, splitLabel_pairText op hkey,
    Percent.formDecode_encode, Option.bind_eq_bind, Option.bind_some]

/-- **The pieces of a variable** read back as its contents. -/
theorem readsBack_pieces (hop : op.IsDelimiting) (hname : Grammar.VarName spec.name)
    {shape : Shape} (hmember : shape.HasMember) :
    List.Forall₂ (ReadsBack op) (spec.pieces op shape) (spec.contents op shape) := by
  cases shape with
  | undefined => exact .nil
  | scalar text =>
    have hcut : spec.scalarUnit op text =
        nameIfWanted op spec.name (Percent.encode false (spec.keptText text)) := by
      simp only [VarSpec.scalarUnit, VarSpec.keptText, hop.plain]
      cases spec.maxLength? <;> simp only [truncate_false]
    refine .cons ?_ .nil
    rw [hcut]
    exact readsBack_text hop hname _
  | list items =>
    simp only [VarSpec.pieces, VarSpec.contents, hop.plain]
    split
    · rw [List.forall₂_map_left_iff, List.forall₂_map_right_iff, List.forall₂_same]
      exact fun item _ => readsBack_text hop hname item
    · rename_i hexplode
      refine .cons ?_ .nil
      simp only [VarSpec.listUnit, hop.plain]
      rw [if_neg hexplode]
      exact readsBack_list hop hname hmember
  | pairs entries =>
    simp only [VarSpec.pieces, VarSpec.contents, hop.plain]
    split
    · rw [List.forall₂_map_left_iff, List.forall₂_map_right_iff, List.forall₂_same]
      exact fun e _ => readsBack_entry hop e.1 e.2
    · rename_i hexplode
      refine .cons ?_ .nil
      simp only [VarSpec.pairsUnit, hop.plain]
      rw [if_neg hexplode]
      exact readsBack_pairs hop hname hmember

theorem readsBack_piecesOf {context : Value} {specs : List VarSpec} (hop : op.IsDelimiting)
    (hnames : ∀ spec ∈ specs, Grammar.VarName spec.name)
    (hmember : ∀ spec ∈ specs, (context.shapeOf spec.name).HasMember) :
    List.Forall₂ (ReadsBack op) (piecesOf op context specs) (contentsOf op context specs) := by
  induction specs with
  | nil => exact .nil
  | cons spec specs ih =>
    have hhead := readsBack_pieces hop (hnames spec (by simp)) (hmember spec (by simp))
    have htail := ih (fun s h => hnames s (by simp [h])) fun s h => hmember s (by simp [h])
    exact List.rel_append hhead htail

/-- **No value can bring a delimiter.** The expansion of an expression whose names are names of the
grammar is empty exactly if all its variables are undefined; otherwise what stands behind the first
character splits at the separator into the pieces of the variables, and each of them reads as the
content that it stands for. -/
theorem expand_splits_into_contents {e : Expression} {context : Value} {text : Text}
    (hop : e.operator ∈ [Operator.path, .parameter, .query, .continuation])
    (hnames : ∀ spec ∈ e.varSpecs, Grammar.VarName spec.name)
    (h : e.expand context = .ok text) :
    (text = [] ↔ ∀ spec ∈ e.varSpecs, context.resolve spec.name = .ok .undefined) ∧
    (text ≠ [] → ∃ body, text = e.operator.first ++ body ∧
      body.splitOn e.operator.separator = piecesOf e.operator context e.varSpecs ∧
      List.Forall₂ (ReadsAs e.operator.isNamed) (body.splitOn e.operator.separator)
        (contentsOf e.operator context e.varSpecs)) := by
  have hdelim := isDelimiting_of_mem hop
  have hresolve : ∀ spec ∈ e.varSpecs,
      context.resolve spec.name = .ok (context.shapeOf spec.name) := by
    obtain ⟨units, hunits, -⟩ := bind_eq_ok_iff.1 h
    exact resolve_of_unitsOf hunits
  have hmember : ∀ spec ∈ e.varSpecs, (context.shapeOf spec.name).HasMember :=
    fun spec hspec => Value.hasMember_of_resolve (hresolve spec hspec)
  have hreads := readsBack_piecesOf hdelim hnames hmember
  have hjoin := expand_eq_pieces h
  have hempty : text = [] ↔ piecesOf e.operator context e.varSpecs = [] := by
    rw [hjoin, joinUnits]
    split <;> simp [*, hdelim.first]
  refine ⟨?_, ?_⟩
  · rw [hempty, piecesOf, List.flatMap_eq_nil_iff]
    refine forall₂_congr fun spec hspec => ?_
    rw [VarSpec.pieces_eq_nil_iff (hmember spec hspec), hresolve spec hspec, Except.ok.injEq]
  · intro hne
    have hpieces := mt hempty.2 hne
    rw [joinUnits, if_neg hpieces] at hjoin
    obtain ⟨hsep, hcontents⟩ := (List.forall₂_and_left _ _).1 hreads
    refine ⟨_, hjoin, ?_⟩
    rw [List.splitOn_intercalate _ hsep hpieces]
    exact ⟨rfl, hcontents⟩

/-- Values made of delimiters: a cut text, a list in one piece, and exploded pairs whose key and
value are empty. -/
theorem delimiters_sample :
    let context : Value := .map [("s".toList, .ofText "a&b=c".toList),
      ("l".toList, .ofTexts [",".toList, [], "+ ".toList]),
      ("m".toList, .map [([], .ofText []), ("&=".toList, .ofText "é".toList)])]
    let e : Expression := ⟨.parameter, [.withMaxLength (.plain "s".toList) 3, .plain "l".toList,
      .withExplode (.plain "m".toList)]⟩
    e.expand context = .ok ";s=a%26b;l=%2C,,%2B+;;%26%3D=%C3%A9".toList ∧
      ∃ body, ";s=a%26b;l=%2C,,%2B+;;%26%3D=%C3%A9".toList = ';' :: body ∧
        List.Forall₂ (ReadsAs true) (body.splitOn ';')
          [.text (some "s".toList) "a&b".toList,
            .list (some "l".toList) [",".toList, [], "+ ".toList],
            .entry [] [], .entry "&=".toList "é".toList] := by
  intro context e
  have h : e.expand context = .ok ";s=a%26b;l=%2C,,%2B+;;%26%3D=%C3%A9".toList := by
    decide +kernel
  have hletter : ∀ c, c.isAlpha = true → Grammar.VarName [c] := fun c hc => .mk (.letter hc) .nil
  have hnames : ∀ spec ∈ e.varSpecs, Grammar.VarName spec.name := by
    intro spec hspec
    simp only [e, List.mem_cons, List.not_mem_nil, or_false] at hspec
    rcases hspec with rfl | rfl | rfl <;> exact hletter _ (by decide)
  obtain ⟨body, hbody, -, hcontents⟩ :=
    (expand_splits_into_contents (by decide) hnames h).2 (by decide)
  exact ⟨h, body, hbody, hcontents⟩

end Delimiting

end UriTemplate
