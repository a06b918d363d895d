import UriTemplate.Proofs.Template.Names
import UriTemplate.Proofs.Template.Refusal

/-!
# Refusals that nothing can mend

A reader that is refused for want of text may do better with more of it. All others are not changed
by what follows: with a closing brace still to come no reader gets to the end of its input, so none
of them can tell a text from the same text with more behind it. So a template in which every
opening brace is closed somewhere is refused for good (`readSections_error_append`), with the same
fault at the same place.
-/

namespace UriTemplate
set_option autoImplicit false
open Template

/-- A refusal of a text, with more text behind it. -/
def Refusal.extend (r : Refusal) (u : Text) : Refusal := { r with rest := r.rest ++ u }

/-- Every opening brace of the text has a closing brace somewhere behind it. -/
def BracesClosed (s : Text) : Prop := ∀ front rest, s = front ++ '{' :: rest → '}' ∈ rest

theorem BracesClosed.of_append {front s : Text} (h : BracesClosed (front ++ s)) :
    BracesClosed s := by
  rintro front' rest rfl
  exact h (front ++ front') rest (by simp)

@[simp] theorem bracesClosed_nil : BracesClosed [] := by simp [BracesClosed]

@[simp] theorem bracesClosed_cons {c : Char} {s : Text} :
    BracesClosed (c :: s) ↔ (c = '{' → '}' ∈ s) ∧ BracesClosed s := by
  constructor
  · intro h
    refine ⟨?_, @BracesClosed.of_append [c] s h⟩
    rintro rfl
    exact h [] s rfl
  · rintro ⟨hc, h⟩ front rest hs
    rcases List.cons_eq_append_iff.1 hs with ⟨-, hs⟩ | ⟨front', -, hs⟩
    · obtain ⟨rfl, rfl⟩ := List.cons.inj hs
      exact hc rfl
    · exact h front' rest hs

/-! ## Scans that stop -/

theorem StopsAt.append {p : Char → Bool} {s : Text} (h : StopsAt p s) (hne : s ≠ []) (u : Text) :
    StopsAt p (s ++ u) := by
  obtain ⟨c, s, rfl⟩ := List.exists_cons_of_ne_nil hne
  exact stopsAt_cons.2 (stopsAt_cons.1 h)

theorem takeWhile_append_of_mem {p : Char → Bool} {c : Char} {s : Text} (hmem : c ∈ s)
    (hc : p c = false) (u : Text) : (s ++ u).takeWhile p = s.takeWhile p := by
  induction s with
  | nil => cases hmem
  | cons d s ih =>
    by_cases hd : p d = true
    · have hne : c ≠ d := by
        rintro rfl
        rw [hc] at hd
        cases hd
      simp [hd, ih (List.mem_of_ne_of_mem hne hmem)]
    · simp [hd]

/-! ## Closing braces are not read over -/

theorem closingBrace_mem {w s : Text} (hw : '}' ∉ w) (h : '}' ∈ w ++ s) : '}' ∈ s :=
  (List.mem_append.1 h).resolve_left hw

theorem closingBrace_not_mem_varChar {w : Text} (h : Grammar.VarChar w) : '}' ∉ w := by
  intro hmem
  have hplain := isPlainOutput_of_varChar h hmem
  revert hplain
  decide

theorem VarSpec.WellFormed.closingBrace_not_mem {spec : VarSpec} (h : spec.WellFormed) :
    '}' ∉ spec.toText := by
  have hname : '}' ∉ spec.name := not_mem_varName h.name (by decide)
  have hmodifier : ∀ m : Modifier, '}' ∉ m.toText := by
    rintro (n | _) hmem
    · rcases List.mem_cons.1 hmem with hcolon | hdigit
      · cases hcolon
      · have := isDigit_of_mem_numeral hdigit
        revert this
        decide
    · revert hmem
      decide
  rw [VarSpec.toText_eq, List.mem_append, not_or]
  refine ⟨hname, ?_⟩
  cases spec.modifier with
  | none => simp
  | some m => exact hmodifier m

/-! ## More text behind a refusal -/

section Finality

variable {opening s : Text} {r : Refusal}

theorem endName_error_append {state : NameState} (u : Text)
    (h : endName opening state s = .error r) (hclosed : '}' ∈ s) :
    endName (opening ++ u) state (s ++ u) = .error (r.extend u) := by
  obtain ⟨c, s, rfl⟩ := List.exists_cons_of_ne_nil (List.ne_nil_of_mem hclosed)
  cases state <;> cases h <;> rfl

theorem readName_varChar_error {state : NameState} {w : Text} (hw : Grammar.VarChar w)
    (h : readName opening .behindChar s = .error r) :
    readName opening state (w ++ s) = .error r := by
  rw [readName_varChar hw, h]
  rfl

theorem readName_error_append {state : NameState} (u : Text)
    (h : readName opening state s = .error r) (hclosed : '}' ∈ s) :
    readName (opening ++ u) state (s ++ u) = .error (r.extend u) := by
  have hpercent : isNameChar '%' = false := by decide
  have hdot : isNameChar '.' = false := by decide
  fun_induction readName opening state s with
  | case1 state => cases hclosed
  | case2 state c s hc ih =>
    have hw := varChar_of_isNameChar hc
    have hmem := closingBrace_mem (closingBrace_not_mem_varChar hw) hclosed
    exact readName_varChar_error (w := [c]) hw (ih (map_eq_error_iff.1 h) hmem)
  | case3 state a b s hhex hc ih =>
    simp only [Bool.and_eq_true, isHexDigit_iff] at hhex
    have hw : Grammar.VarChar ['%', a, b] := .triplet hhex.1 hhex.2
    have hmem := closingBrace_mem (closingBrace_not_mem_varChar hw) hclosed
    exact readName_varChar_error (w := ['%', a, b]) hw (ih (map_eq_error_iff.1 h) hmem)
  | case4 state a b s hhex =>
    cases h
    simp [readName, hpercent, hhex, Refusal.extend]
  | case5 state s hshort =>
    -- the closing brace is the only character behind the percent sign
    cases h
    have hs : s = ['}'] := by
      obtain ⟨a, s, rfl⟩ := List.exists_cons_of_ne_nil
        (List.ne_nil_of_mem (List.mem_of_ne_of_mem (by decide) hclosed))
      cases s with
      | nil => simpa [eq_comm] using hclosed
      | cons b s => exact (hshort a b s rfl).elim
    subst hs
    have hbrace : isHexDigit '}' = false := by decide
    cases u <;> simp [readName, hpercent, hbrace, Refusal.extend]
  | case6 s hc hp ih =>
    have hread := ih (map_eq_error_iff.1 h) (List.mem_of_ne_of_mem (by decide) hclosed)
    rw [List.cons_append, readName_dot, hread]
    rfl
  | case7 state s hstate =>
    cases h
    rw [List.cons_append, readName.eq_def]
    simp [hdot, hstate, Refusal.extend]
  | case8 state c s hc hp hd =>
    rw [← endName_error_append u h hclosed, List.cons_append, readName.eq_def]
    simp [hc, hp, hd]

theorem readMaxLength_error_append (u : Text) (h : readMaxLength s = .error r)
    (hclosed : '}' ∈ s) : readMaxLength (s ++ u) = .error (r.extend u) := by
  have hdigits := takeWhile_append_of_mem (p := Char.isDigit) hclosed (by decide) u
  simp only [readMaxLength] at h ⊢
  rw [hdigits]
  split at h
  · cases h
    simp [*, Refusal.extend]
  split at h
  · cases h
    simp [*, Refusal.extend]
  split at h <;> cases h
  simp [*, Refusal.extend]

theorem startsModifier_append (h : startsModifier s = true) (u : Text) :
    startsModifier (s ++ u) = true := by
  cases s with
  | nil => cases h
  | cons c s => exact h

theorem readModifier_error_append {name : Text} (u : Text)
    (h : readModifier name s = .error r) (hclosed : '}' ∈ s) :
    readModifier name (s ++ u) = .error (r.extend u) := by
  unfold readModifier at h
  split at h
  · rename_i s'
    have hmem : '}' ∈ s' := List.mem_of_ne_of_mem (by decide) hclosed
    show (readMaxLength (s' ++ u)).bind _ = _
    rcases bind_eq_error_iff.1 h with hread | ⟨⟨m, rest⟩, hread, hsecond⟩
    · rw [readMaxLength_error_append u hread hmem]
      rfl
    · obtain ⟨n, rfl, hn, rfl, hstop⟩ := readMaxLength_eq_ok_iff.1 hread
      dsimp only at hsecond
      split at hsecond <;> cases hsecond
      rename_i hmark
      have hne : rest ≠ [] := by
        rintro rfl
        cases hmark
      have hread' := readMaxLength_eq_ok_iff.2 ⟨n, rfl, hn, rfl, hstop.append hne u⟩
      rw [List.append_assoc, hread']
      simp [Except.bind, startsModifier_append hmark u, Refusal.extend]
  · split at h <;> cases h
    rename_i hmark
    simp [readModifier, startsModifier_append hmark u, Refusal.extend]
  · cases h

theorem readVarSpec_ok_append {spec : VarSpec} {rest : Text} (opening' u : Text)
    (h : readVarSpec opening s = .ok (spec, rest)) (hclosed : '}' ∈ s) :
    '}' ∈ rest ∧ readVarSpec opening' (s ++ u) = .ok (spec, rest ++ u) := by
  obtain ⟨hspec, rfl, hstop⟩ := readVarSpec_eq_ok_iff.1 h
  have hrest := closingBrace_mem hspec.closingBrace_not_mem hclosed
  refine ⟨hrest, readVarSpec_eq_ok_iff.2 ⟨hspec, List.append_assoc _ _ _, ?_⟩⟩
  exact hstop.append (List.ne_nil_of_mem hrest) u

theorem readVarSpec_error_append (u : Text) (h : readVarSpec opening s = .error r)
    (hclosed : '}' ∈ s) : readVarSpec (opening ++ u) (s ++ u) = .error (r.extend u) := by
  show (readName (opening ++ u) .start (s ++ u)).bind _ = _
  rcases bind_eq_error_iff.1 h with hname | ⟨⟨name, s'⟩, hname, h'⟩
  · rw [readName_error_append u hname hclosed]
    rfl
  · obtain ⟨hn, rfl, hstop⟩ := readName_eq_ok_iff.1 hname
    have hmem : '}' ∈ s' := closingBrace_mem (not_mem_varName hn (by decide)) hclosed
    have hname' : readName (opening ++ u) .start (name ++ s' ++ u) = .ok (name, s' ++ u) :=
      readName_eq_ok_iff.2
        ⟨hn, List.append_assoc _ _ _, hstop.append (List.ne_nil_of_mem hmem) u⟩
    rcases bind_eq_error_iff.1 h' with hmodifier | ⟨_, -, hok⟩
    · rw [hname']
      show (readModifier name (s' ++ u)).bind _ = _
      rw [readModifier_error_append u hmodifier hmem]
      rfl
    · cases hok

theorem readVarSpecs_error_append (u : Text) (h : readVarSpecs opening s = .error r)
    (hclosed : '}' ∈ s) : readVarSpecs (opening ++ u) (s ++ u) = .error (r.extend u) := by
  fun_induction readVarSpecs opening s with
  | case1 s e hread =>
    cases h
    rw [readVarSpecs_eq, readVarSpec_error_append u hread hclosed]
    rfl
  | case2 s spec hread =>
    -- the text has come to its end, where no closing brace can be left
    have hrest := (readVarSpec_ok_append opening u hread hclosed).1
    cases hrest
  | case3 s spec rest hread _ ih =>
    obtain ⟨hrest, hread'⟩ := readVarSpec_ok_append (opening ++ u) u hread hclosed
    have htail := ih (map_eq_error_iff.1 h) (List.mem_of_ne_of_mem (by decide) hrest)
    rw [readVarSpecs_eq, hread']
    simp [Except.bind, htail, Except.map]
  | case4 => cases h
  | case5 s spec c rest hread hcomma hbrace =>
    cases h
    rw [readVarSpecs_eq, (readVarSpec_ok_append (opening ++ u) u hread hclosed).2]
    simp [Except.bind, hcomma, hbrace, Refusal.extend]

theorem readExpression_error_append (u : Text) (h : readExpression s = .error r)
    (hclosed : '}' ∈ s) : readExpression (s ++ u) = .error (r.extend u) := by
  obtain ⟨c, s, rfl⟩ := List.exists_cons_of_ne_nil (List.ne_nil_of_mem hclosed)
  rw [List.cons_append]
  cases hop : Operator.ofChar? c with
  | some op =>
    have hc := Operator.ofChar?_eq_some_iff.1 hop
    have hne : '}' ≠ c := by
      rintro rfl
      cases hop
    rw [readExpression_operator hc] at h ⊢
    exact map_eq_error_iff.2 (readVarSpecs_error_append u (map_eq_error_iff.1 h)
      (List.mem_of_ne_of_mem hne hclosed))
  | none =>
    by_cases hkept : Operator.isKeptForLater c = true
    · simp only [readExpression, hop, hkept, if_true, Except.error.injEq] at h ⊢
      rw [← h]
      rfl
    · rw [Bool.not_eq_true] at hkept
      rw [readExpression_simple hop hkept] at h ⊢
      exact map_eq_error_iff.2 (readVarSpecs_error_append u (map_eq_error_iff.1 h) hclosed)

/-- **Refusals are final** once every opening brace is closed. -/
theorem readSections_error_append (u : Text) (h : readSections s = .error r)
    (hclosed : BracesClosed s) : readSections (s ++ u) = .error (r.extend u) := by
  fun_induction readSections s with
  | case1 => cases h
  | case2 s e hread =>
    cases h
    rw [List.cons_append, readSections_open,
      readExpression_error_append u hread ((bracesClosed_cons.1 hclosed).1 rfl)]
    rfl
  | case3 s e rest hread _ ih =>
    obtain ⟨he, hs⟩ := readExpression_eq_ok_iff.1 hread
    have hread' : readExpression (s ++ u) = .ok (e, rest ++ u) := by
      refine readExpression_eq_ok_iff.2 ⟨he, ?_⟩
      rw [← List.append_assoc, ← hs, List.cons_append]
    have hrest := ih (map_eq_error_iff.1 h) (BracesClosed.of_append (hs ▸ hclosed))
    rw [List.cons_append, readSections_open, hread']
    simp [Except.bind, hrest, Except.map]
  | case4 s =>
    cases h
    rw [List.cons_append, readSections]
    simp [Refusal.extend]
  | case5 c s hopen hclose ih =>
    have hrest := ih (map_eq_error_iff.1 h) (bracesClosed_cons.1 hclosed).2
    rw [List.cons_append, readSections_literal hopen hclose, hrest]
    rfl

end Finality

/-! ## Main statement -/

/-- **Positions of syntax errors.** The position of an error is the length of some text that the
input starts with, so it is within the input and between two characters; that text is the start of a
template; and if every opening brace of the input is closed, the input has the same error at the
same position with any text behind it. -/
theorem parse_error_viable_and_final {s : Text} {e : SyntaxError} (h : parse s = .error e) :
    e.position ≤ Text.utf8Length s ∧
    (∃ front rest, s = front ++ rest ∧ e.position = Text.utf8Length front ∧
      ∃ completion t, parse (front ++ completion) = .ok t) ∧
    (BracesClosed s → ∀ u, parse (s ++ u) = .error e) := by
  obtain ⟨r, hr, rfl⟩ := parse_eq_error_iff.1 h
  obtain ⟨front, completion, hs, hgrammar⟩ := readSections_refusal hr
  refine ⟨Nat.sub_le _ _, ⟨front, r.rest, hs, ?_, completion, exists_parse_of_grammar hgrammar⟩, ?_⟩
  · rw [hs]
    simp
  · intro hclosed u
    refine parse_eq_error_iff.2 ⟨_, readSections_error_append u hr hclosed, ?_⟩
    simp [Refusal.extend, Nat.add_sub_add_right]

/-- A character of two bytes and an expression in front of a name that ends in a dot, where the name
could have ended as well. -/
theorem viable_and_final_sample :
    let s := ['é', '{', 'a', '}', '{', 'x', '.', '}', 'z']
    parse s = .error ⟨7, .trailingDot⟩ ∧
      (∃ front rest, s = front ++ rest ∧ 7 = Text.utf8Length front ∧
        ∃ completion t, parse (front ++ completion) = .ok t) ∧
      parse (s ++ ['y', '}']) = .error ⟨7, .trailingDot⟩ := by
  intro s
  have h : parse s = .error ⟨7, .trailingDot⟩ := by decide +kernel
  have hclosed : BracesClosed s := by simp [s]
  obtain ⟨-, hviable, hfinal⟩ := parse_error_viable_and_final h
  exact ⟨h, hviable, hfinal hclosed ['y', '}']⟩

end UriTemplate
