import UriTemplate.Proofs.Except
import UriTemplate.Proofs.Template.NormalForm
import UriTemplate.Template.Read

/-!
# What the readers accept

For each reader of template notation, one equivalence: it answers `x` with `rest` left exactly when
the text is the notation of `x` in front of `rest`, `x` is well-formed, and `rest` could not have
been read as more of `x`. The readers of names and of modifiers take as much as they can, which is
the last condition (`StopsAt`); an expression ends with its brace and needs none.
-/

namespace UriTemplate
set_option autoImplicit false
open Template

/-! ## Names -/

/-- The characters that continue a name. -/
def continuesName (c : Char) : Bool := isNameChar c || c = '%' || c = '.'

theorem isHexDigit_iff {c : Char} : isHexDigit c = true ↔ Grammar.IsHexDigit c := by
  unfold isHexDigit hexValue? Grammar.IsHexDigit
  split
  · simp [*]
  split
  · simp [*]
  split <;> simp [*]

theorem varChar_of_isNameChar {c : Char} (h : isNameChar c = true) : Grammar.VarChar [c] := by
  simp only [isNameChar, Char.isAlphanum, Bool.or_eq_true, decide_eq_true_eq] at h
  rcases h with (h | h) | rfl
  · exact .letter h
  · exact .digit h
  · exact .underscore

/-- A name character is a plain one or a triplet. -/
theorem varChar_iff {w : Text} : Grammar.VarChar w ↔
    (∃ c, isNameChar c = true ∧ w = [c]) ∨
      ∃ a b, isHexDigit a = true ∧ isHexDigit b = true ∧ w = ['%', a, b] := by
  constructor
  · rintro (h | h | _ | ⟨ha, hb⟩)
    · exact .inl ⟨_, by simp [isNameChar, Char.isAlphanum, h], rfl⟩
    · exact .inl ⟨_, by simp [isNameChar, Char.isAlphanum, h], rfl⟩
    · exact .inl ⟨'_', by decide, rfl⟩
    · exact .inr ⟨_, _, isHexDigit_iff.2 ha, isHexDigit_iff.2 hb, rfl⟩
  · rintro (⟨c, hc, rfl⟩ | ⟨a, b, ha, hb, rfl⟩)
    · exact varChar_of_isNameChar hc
    · exact .triplet (isHexDigit_iff.1 ha) (isHexDigit_iff.1 hb)

/-- What may still be read of a name: more of it behind a character, a name elsewhere. -/
def NameFrom : NameState → Text → Prop
  | .behindChar => Grammar.VarCharTail
  | _ => Grammar.VarName

theorem NameFrom.varChar {w n : Text} (hw : Grammar.VarChar w) (hn : Grammar.VarCharTail n) :
    ∀ state, NameFrom state (w ++ n)
  | .behindChar => .plain hw hn
  | .start | .behindDot => .mk hw hn

theorem NameFrom.dot {n : Text} (h : NameFrom .behindDot n) : NameFrom .behindChar ('.' :: n) := by
  cases h with
  | mk hw hs => exact .dotted hw hs

section Name

variable {opening s name rest : Text} {state : NameState}

theorem readName_varChar {w : Text} (h : Grammar.VarChar w) :
    readName opening state (w ++ s) = (readName opening .behindChar s).map (prepend w) := by
  rcases varChar_iff.1 h with ⟨c, hc, rfl⟩ | ⟨a, b, ha, hb, rfl⟩
  · rw [List.singleton_append, readName.eq_def]
    simp only [hc, if_true]
  · have hpercent : isNameChar '%' = false := by decide
    simp [readName, hpercent, ha, hb]

theorem readName_dot :
    readName opening .behindChar ('.' :: s) =
      (readName opening .behindDot s).map (prepend ['.']) := by
  have hdot : isNameChar '.' = false := by decide
  rw [readName.eq_def]
  simp [hdot]

theorem readName_stop (h : StopsAt continuesName rest) :
    readName opening .behindChar rest = .ok ([], rest) := by
  cases rest with
  | nil => rfl
  | cons c s =>
    simp only [stopsAt_cons, continuesName, Bool.or_eq_false_iff, decide_eq_false_iff_not] at h
    rw [readName.eq_def]
    simp [h.1.1, h.1.2, h.2, endName]

theorem readName_tail (h : Grammar.VarCharTail name) (hrest : StopsAt continuesName rest) :
    readName opening .behindChar (name ++ rest) = .ok (name, rest) := by
  induction h with
  | nil => exact readName_stop hrest
  | plain hw _ ih =>
    rw [List.append_assoc, readName_varChar hw, ih]
    rfl
  | dotted hw _ ih =>
    rw [List.cons_append, readName_dot, List.append_assoc, readName_varChar hw, ih]
    rfl

theorem readName_of_nameFrom (h : NameFrom state name) (hrest : StopsAt continuesName rest) :
    readName opening state (name ++ rest) = .ok (name, rest) := by
  cases state with
  | behindChar => exact readName_tail h hrest
  | start | behindDot =>
    cases h with
    | mk hw hs =>
      rw [List.append_assoc, readName_varChar hw, readName_tail hs hrest]
      rfl

theorem nameFrom_of_endName (h : endName opening state s = .ok (name, rest))
    (hs : StopsAt continuesName s) :
    NameFrom state name ∧ s = name ++ rest ∧ StopsAt continuesName rest := by
  unfold endName at h
  split at h <;> cases h
  exact ⟨.nil, rfl, hs⟩

theorem nameFrom_of_readName (h : readName opening state s = .ok (name, rest)) :
    NameFrom state name ∧ s = name ++ rest ∧ StopsAt continuesName rest := by
  fun_induction readName opening state s generalizing name with
  | case1 state => exact nameFrom_of_endName h (stopsAt_nil _)
  | case2 state c s hc ih =>
    obtain ⟨⟨n, r⟩, hr, he⟩ := map_eq_ok_iff.1 h
    cases he
    obtain ⟨hn, rfl, hrest⟩ := ih hr
    exact ⟨NameFrom.varChar (varChar_of_isNameChar hc) hn state, rfl, hrest⟩
  | case3 state a b s hhex hc ih =>
    obtain ⟨⟨n, r⟩, hr, he⟩ := map_eq_ok_iff.1 h
    cases he
    obtain ⟨hn, rfl, hrest⟩ := ih hr
    simp only [Bool.and_eq_true] at hhex
    have hw : Grammar.VarChar ['%', a, b] :=
      .triplet (isHexDigit_iff.1 hhex.1) (isHexDigit_iff.1 hhex.2)
    exact ⟨NameFrom.varChar hw hn state, rfl, hrest⟩
  | case6 s hc hp ih =>
    obtain ⟨⟨n, r⟩, hr, he⟩ := map_eq_ok_iff.1 h
    cases he
    obtain ⟨hn, rfl, hrest⟩ := ih hr
    exact ⟨hn.dot, rfl, hrest⟩
  | case8 state c s hc hp hd =>
    refine nameFrom_of_endName h ?_
    simp [continuesName, hc, hp, hd]
  | case4 | case5 | case7 => cases h

/-- **Names.** -/
theorem readName_eq_ok_iff : readName opening .start s = .ok (name, rest) ↔
    Grammar.VarName name ∧ s = name ++ rest ∧ StopsAt continuesName rest := by
  constructor
  · exact nameFrom_of_readName
  · rintro ⟨hn, rfl, hrest⟩
    exact readName_of_nameFrom (show NameFrom .start name from hn) hrest

end Name

/-! ## Modifiers and variable specifications -/

/-- The characters that start a modifier. -/
def isModifierMark (c : Char) : Bool := c = ':' || c = '*'

theorem startsModifier_eq_false_iff {rest : Text} :
    startsModifier rest = false ↔ StopsAt isModifierMark rest := by
  cases rest with
  | nil => simp [startsModifier]
  | cons c s => simp [startsModifier, isModifierMark]

theorem readMaxLength_eq_ok_iff {s rest : Text} {m : Modifier} :
    readMaxLength s = .ok (m, rest) ↔ ∃ n, m = .maxLength n ∧ (1 ≤ n ∧ n ≤ maxLengthLimit) ∧
      s = numeral n ++ rest ∧ StopsAt Char.isDigit rest := by
  constructor
  · intro h
    simp only [readMaxLength] at h
    split at h
    · cases h
    rename_i hne
    split at h
    · cases h
    rename_i hzero
    split at h
    · rename_i hlimit
      cases h
      have hdigits : ∀ d ∈ s.takeWhile Char.isDigit, d.isDigit = true :=
        List.all_eq_true.1 List.all_takeWhile
      obtain ⟨hword, hpos⟩ := numeral_digitsValue hne hdigits hzero
      refine ⟨_, rfl, ⟨hpos, hlimit⟩, ?_, stopsAt_dropWhile _ _⟩
      rw [hword, List.takeWhile_append_dropWhile]
    · cases h
  · rintro ⟨n, rfl, ⟨hpos, hlimit⟩, rfl, hrest⟩
    have hdigits : ∀ c ∈ numeral n, c.isDigit = true := fun c hc => isDigit_of_mem_numeral hc
    obtain ⟨htake, hdrop⟩ := takeWhile_append_of_stopsAt hdigits hrest
    simp only [readMaxLength, htake, hdrop, digitsValue_numeral]
    rw [if_neg (numeral_ne_nil n), if_neg (head?_numeral_ne_zero hpos), if_pos hlimit]

/-- The lengths that a modifier may have, and what may not follow them. -/
def ModifierFits (m : Option Modifier) (rest : Text) : Prop :=
  ∀ n, m = some (.maxLength n) → (1 ≤ n ∧ n ≤ maxLengthLimit) ∧ StopsAt Char.isDigit rest

theorem readModifier_of_stopsAt {name s : Text} (h : StopsAt isModifierMark s) :
    readModifier name s = .ok (none, s) := by
  cases s with
  | nil => rfl
  | cons c s =>
    simp only [stopsAt_cons, isModifierMark, Bool.or_eq_false_iff, decide_eq_false_iff_not] at h
    unfold readModifier
    split
    · rename_i heq
      exact absurd (List.cons.inj heq).1 h.1
    · rename_i heq
      exact absurd (List.cons.inj heq).1 h.2
    · rfl

/-- **Modifiers.** -/
theorem readModifier_eq_ok_iff {name s rest : Text} {m : Option Modifier} :
    readModifier name s = .ok (m, rest) ↔ s = m.elim [] Modifier.toText ++ rest ∧
      StopsAt isModifierMark rest ∧ ModifierFits m rest := by
  constructor
  · intro h
    unfold readModifier at h
    split at h
    · obtain ⟨⟨m', r⟩, hm, hsecond⟩ := bind_eq_ok_iff.1 h
      obtain ⟨n, rfl, hn, rfl, hdigit⟩ := readMaxLength_eq_ok_iff.1 hm
      dsimp only at hsecond
      split at hsecond
      · cases hsecond
      rename_i hmark
      cases hsecond
      refine ⟨rfl, startsModifier_eq_false_iff.1 (by simpa using hmark), ?_⟩
      intro k hk
      cases hk
      exact ⟨hn, hdigit⟩
    · split at h
      · cases h
      rename_i hmark
      cases h
      exact ⟨rfl, startsModifier_eq_false_iff.1 (by simpa using hmark), by simp [ModifierFits]⟩
    · rename_i hcolon hstar
      cases h
      refine ⟨rfl, ?_, by simp [ModifierFits]⟩
      cases s with
      | nil => simp
      | cons c s =>
        have hc : c ≠ ':' := fun he => hcolon s (by rw [he])
        have hc' : c ≠ '*' := fun he => hstar s (by rw [he])
        simp [isModifierMark, hc, hc']
  · rintro ⟨rfl, hmark, hfits⟩
    have hnone := startsModifier_eq_false_iff.2 hmark
    match m with
    | none => exact readModifier_of_stopsAt hmark
    | some (.maxLength n) =>
      obtain ⟨hn, hdigit⟩ := hfits n rfl
      have hread := readMaxLength_eq_ok_iff.2 ⟨n, rfl, hn, rfl, hdigit⟩
      simp [readModifier, Modifier.toText, hread, hnone, bind, Except.bind]
    | some .explode => simp [readModifier, Modifier.toText, hnone]

/-- The characters that would be read as more of a variable specification. -/
def VarSpec.continuedBy (spec : VarSpec) (c : Char) : Bool :=
  isModifierMark c || match spec.modifier with
    | none => continuesName c
    | some (.maxLength _) => c.isDigit
    | some .explode => false

theorem VarSpec.toText_eq (spec : VarSpec) :
    spec.toText = spec.name ++ spec.modifier.elim [] Modifier.toText := by
  unfold VarSpec.toText
  cases spec.modifier <;> rfl

/-- A well-formed specification that is not continued, by its name and its modifier. -/
theorem VarSpec.wellFormed_and_stopsAt_iff {spec : VarSpec} {rest : Text} :
    spec.WellFormed ∧ StopsAt spec.continuedBy rest ↔ Grammar.VarName spec.name ∧
      StopsAt continuesName (spec.modifier.elim [] Modifier.toText ++ rest) ∧
        StopsAt isModifierMark rest ∧ ModifierFits spec.modifier rest := by
  have hcolon : continuesName ':' = false := by decide
  have hstar : continuesName '*' = false := by decide
  unfold VarSpec.continuedBy
  rw [stopsAt_or_iff]
  obtain ⟨name, modifier⟩ := spec
  constructor
  · rintro ⟨⟨hname, hlength⟩, hmark, hrest⟩
    match modifier with
    | none => exact ⟨hname, hrest, hmark, by simp [ModifierFits]⟩
    | some (.maxLength n) =>
      refine ⟨hname, by simp [Modifier.toText, hcolon], hmark, ?_⟩
      intro k hk
      cases hk
      exact ⟨hlength n rfl, hrest⟩
    | some .explode =>
      exact ⟨hname, by simp [Modifier.toText, hstar], hmark, by simp [ModifierFits]⟩
  · rintro ⟨hname, hrest, hmark, hfits⟩
    match modifier with
    | none => exact ⟨⟨hname, by simp [VarSpec.maxLength?]⟩, hmark, hrest⟩
    | some (.maxLength n) =>
      obtain ⟨hn, hdigit⟩ := hfits n rfl
      refine ⟨⟨hname, ?_⟩, hmark, hdigit⟩
      intro k hk
      cases hk
      exact hn
    | some .explode => exact ⟨⟨hname, by simp [VarSpec.maxLength?]⟩, hmark, by cases rest <;> simp⟩

/-- **Variable specifications.** -/
theorem readVarSpec_eq_ok_iff {opening s rest : Text} {spec : VarSpec} :
    readVarSpec opening s = .ok (spec, rest) ↔
      spec.WellFormed ∧ s = spec.toText ++ rest ∧ StopsAt spec.continuedBy rest := by
  constructor
  · intro h
    obtain ⟨⟨name, s'⟩, hname, h'⟩ := bind_eq_ok_iff.1 h
    obtain ⟨⟨m, r⟩, hmod, h''⟩ := bind_eq_ok_iff.1 h'
    cases h''
    obtain ⟨hn, rfl, hstop⟩ := readName_eq_ok_iff.1 hname
    obtain ⟨rfl, hmark, hfits⟩ := readModifier_eq_ok_iff.1 hmod
    have hspec : (⟨name, m⟩ : VarSpec).WellFormed ∧ StopsAt (VarSpec.mk name m).continuedBy rest :=
      VarSpec.wellFormed_and_stopsAt_iff.2 ⟨hn, hstop, hmark, hfits⟩
    refine ⟨hspec.1, ?_, hspec.2⟩
    rw [VarSpec.toText_eq, List.append_assoc]
  · rintro ⟨hwf, rfl, hrest⟩
    obtain ⟨hn, hstop, hmark, hfits⟩ := VarSpec.wellFormed_and_stopsAt_iff.1 ⟨hwf, hrest⟩
    have hname := fun opening => (@readName_eq_ok_iff opening _ _ _).2 ⟨hn, rfl, hstop⟩
    have hmod := fun name => (@readModifier_eq_ok_iff name _ _ _).2 ⟨rfl, hmark, hfits⟩
    rw [VarSpec.toText_eq, List.append_assoc]
    simp only [readVarSpec, hname, hmod, bind, Except.bind]

/-! ## Expressions -/

theorem readVarSpecs_eq (opening s : Text) : readVarSpecs opening s =
    (readVarSpec opening s).bind fun p => match p with
      | (_, []) => .error ⟨opening, .unterminatedExpression⟩
      | (spec, c :: rest) =>
        if c = ',' then (readVarSpecs opening rest).map fun q => (spec :: q.1, q.2)
        else if c = '}' then .ok ([spec], rest)
        else .error ⟨c :: rest, .invalidCharacter c⟩ := by
  rw [readVarSpecs]
  split <;> rename_i h <;> simp [h, Except.bind]

/-- The text of variable specifications with commas between them. -/
def variableListText (specs : List VarSpec) : Text :=
  List.intercalate [','] (specs.map VarSpec.toText)

theorem variableListText_cons {spec : VarSpec} {specs : List VarSpec} (h : specs ≠ []) :
    variableListText (spec :: specs) = spec.toText ++ ',' :: variableListText specs := by
  unfold variableListText
  rw [List.map_cons, List.intercalate_cons_of_ne_nil (by simpa using h)]
  simp

theorem VarSpec.stopsAt_separator {spec : VarSpec} {c : Char} (h : c = ',' ∨ c = '}')
    (rest : Text) : StopsAt spec.continuedBy (c :: rest) := by
  have hc : isModifierMark c = false ∧ continuesName c = false ∧ c.isDigit = false := by
    rcases h with rfl | rfl <;> decide
  obtain ⟨hmark, hname, hdigit⟩ := hc
  rw [stopsAt_cons, continuedBy, hmark, Bool.false_or]
  split
  · exact hname
  · exact hdigit
  · rfl

/-- **Lists of variable specifications**, up to the closing brace. -/
theorem readVarSpecs_eq_ok_iff {opening s rest : Text} {specs : List VarSpec} :
    readVarSpecs opening s = .ok (specs, rest) ↔ specs ≠ [] ∧ (∀ spec ∈ specs, spec.WellFormed) ∧
      s = variableListText specs ++ '}' :: rest := by
  constructor
  · intro h
    fun_induction readVarSpecs opening s generalizing specs with
    | case3 s spec rest' hs _ ih =>
      obtain ⟨⟨specs', r⟩, hr, he⟩ := map_eq_ok_iff.1 h
      cases he
      obtain ⟨hne, hwf, rfl⟩ := ih hr
      obtain ⟨hspec, rfl, -⟩ := readVarSpec_eq_ok_iff.1 hs
      refine ⟨by simp, by simpa using ⟨hspec, hwf⟩, ?_⟩
      rw [variableListText_cons hne]
      simp
    | case4 s spec rest' hs =>
      cases h
      obtain ⟨hspec, rfl, -⟩ := readVarSpec_eq_ok_iff.1 hs
      exact ⟨by simp, by simpa using hspec, by simp [variableListText]⟩
    | case1 | case2 | case5 => cases h
  · rintro ⟨hne, hwf, rfl⟩
    induction specs with
    | nil => exact absurd rfl hne
    | cons spec specs ih =>
      have hspec := hwf spec (by simp)
      have hread := fun c hc s => (@readVarSpec_eq_ok_iff opening _ _ spec).2
        ⟨hspec, rfl, VarSpec.stopsAt_separator (c := c) hc s⟩
      rw [readVarSpecs_eq]
      by_cases hnil : specs = []
      · subst hnil
        simp [variableListText, hread '}' (.inr rfl), Except.bind]
      · rw [variableListText_cons hnil, List.append_assoc, List.cons_append, hread ',' (.inl rfl)]
        have htail := ih hnil fun spec' h => hwf spec' (by simp [h])
        simp [Except.bind, htail, Except.map]

/-- The first character of a name is no operator, nor one kept for operators to come. -/
theorem Grammar.VarName.head {name : Text} (h : Grammar.VarName name) :
    ∃ c s, name = c :: s ∧ Operator.ofChar? c = none ∧ Operator.isKeptForLater c = false := by
  have hmark : ∀ c, isNameChar c = true ∨ c = '%' →
      Operator.ofChar? c = none ∧ Operator.isKeptForLater c = false := by
    intro c hc
    refine ⟨?_, ?_⟩
    · cases hop : Operator.ofChar? c with
      | none => rfl
      | some op =>
        have hchar := Operator.ofChar?_eq_some_iff.1 hop
        cases op <;> cases hchar <;> revert hc <;> decide
    · by_contra hkept
      simp only [Operator.isKeptForLater, Bool.not_eq_false, Bool.or_eq_true,
        decide_eq_true_eq] at hkept
      rcases hkept with (((rfl | rfl) | rfl) | rfl) | rfl <;> revert hc <;> decide
  cases h with
  | mk hw _ =>
    rcases varChar_iff.1 hw with ⟨c, hc, rfl⟩ | ⟨a, b, -, -, rfl⟩
    · exact ⟨c, _, rfl, hmark c (.inl hc)⟩
    · exact ⟨'%', _, rfl, hmark '%' (.inr rfl)⟩

/-- A list of variable specifications does not start like an operator. -/
theorem variableListText_head {specs : List VarSpec} (hne : specs ≠ [])
    (h : ∀ spec ∈ specs, spec.WellFormed) : ∃ c s, variableListText specs = c :: s ∧
      Operator.ofChar? c = none ∧ Operator.isKeptForLater c = false := by
  obtain ⟨spec, specs, rfl⟩ := List.exists_cons_of_ne_nil hne
  obtain ⟨c, s, hname, hnone, hkept⟩ := (h spec (by simp)).name.head
  have htext : ∃ s', variableListText (spec :: specs) = spec.name ++ s' := by
    by_cases hnil : specs = []
    · subst hnil
      exact ⟨_, by rw [variableListText, List.map_singleton, List.intercalate_singleton,
        VarSpec.toText_eq]⟩
    · exact ⟨_, by rw [variableListText_cons hnil, VarSpec.toText_eq, List.append_assoc]⟩
  obtain ⟨s', hs'⟩ := htext
  refine ⟨c, s ++ s', ?_, hnone, hkept⟩
  rw [hs', hname, List.cons_append]

theorem readExpression_operator {op : Operator} {c : Char} {s : Text} (h : op.char? = some c) :
    readExpression (c :: s) =
      (readVarSpecs ('{' :: c :: s) s).map fun q => (⟨op, q.1⟩, q.2) := by
  unfold readExpression
  simp only [Operator.ofChar?_eq_some_iff.2 h]

theorem readExpression_simple {c : Char} {s : Text} (h : Operator.ofChar? c = none)
    (h' : Operator.isKeptForLater c = false) :
    readExpression (c :: s) =
      (readVarSpecs ('{' :: c :: s) (c :: s)).map fun q => (⟨.simple, q.1⟩, q.2) := by
  unfold readExpression
  simp [h, h']

/-- **Expressions**, behind the opening brace. -/
theorem readExpression_eq_ok_iff {s rest : Text} {e : Expression} :
    readExpression s = .ok (e, rest) ↔ e.WellFormed ∧ '{' :: s = e.toText ++ rest := by
  constructor
  · intro h
    unfold readExpression at h
    split at h
    · cases h
    split at h
    · rename_i op hop
      obtain ⟨⟨specs, r⟩, hread, he⟩ := map_eq_ok_iff.1 h
      cases he
      obtain ⟨hne, hwf, rfl⟩ := readVarSpecs_eq_ok_iff.1 hread
      refine ⟨⟨hne, hwf⟩, ?_⟩
      have hmark := Operator.ofChar?_eq_some_iff.1 hop
      simp [Expression.toText, Operator.toText, hmark, variableListText]
    split at h
    · cases h
    · obtain ⟨⟨specs, r⟩, hread, he⟩ := map_eq_ok_iff.1 h
      cases he
      obtain ⟨hne, hwf, hs⟩ := readVarSpecs_eq_ok_iff.1 hread
      refine ⟨⟨hne, hwf⟩, ?_⟩
      simp [Expression.toText, Operator.toText, Operator.char?, variableListText, hs]
  · rintro ⟨⟨hne, hwf⟩, hs⟩
    obtain ⟨op, specs⟩ := e
    have hs' : s = op.toText ++ (variableListText specs ++ '}' :: rest) := by
      simpa [Expression.toText, variableListText] using hs
    have hread := fun opening => (@readVarSpecs_eq_ok_iff opening _ rest specs).2 ⟨hne, hwf, rfl⟩
    cases hop : op.char? with
    | some c =>
      rw [hs', Operator.toText, hop]
      rw [Option.toList_some, List.singleton_append, readExpression_operator hop, hread]
      rfl
    | none =>
      have hsimple : op = .simple := by
        cases op <;> first | rfl | cases hop
      subst hsimple
      -- without an operator character, the first character of the list decides
      obtain ⟨c, w, hw, hnone, hkept⟩ := variableListText_head hne hwf
      rw [hw] at hs' hread
      rw [hs', Operator.toText, hop]
      rw [Option.toList_none, List.nil_append, List.cons_append,
        readExpression_simple hnone hkept, ← List.cons_append, hread]
      rfl

end UriTemplate
