import UriTemplate.Template.Basic
import UriTemplate.Template.SyntaxError

/-!
# Reading templates

`Template.parse` reads a template from its notation by recursive descent. Every reader takes the
text that is left and answers with what it read and the text behind it, or with a `Refusal`: a
fault and the text that starts at the fault. Since that text is an end of the input, the position
of the fault is the length of what stands before it, and no reader has to count.
-/

namespace UriTemplate

/-- A fault and the text that starts where it was found. -/
structure Refusal where
  rest : Text
  fault : SyntaxFault
deriving DecidableEq

namespace Template

/-- Letters, digits and the underscore: what may stand in a name besides dots and triplets. -/
def isNameChar (c : Char) : Bool := c.isAlphanum || c = '_'

/-- What a name may be continued with: at its start and behind a dot no dot may follow. -/
inductive NameState
  | start
  | behindDot
  | behindChar
deriving DecidableEq

/-- The end of a name at `rest`, inside the expression that starts at `opening`. -/
def endName (opening : Text) (state : NameState) (rest : Text) : Except Refusal (Text × Text) :=
  match state, rest with
  | .start, [] => .error ⟨opening, .unterminatedExpression⟩
  | .start, _ :: _ => .error ⟨rest, .emptyName⟩
  | .behindDot, _ => .error ⟨'.' :: rest, .trailingDot⟩
  | .behindChar, _ => .ok ([], rest)

/-- What a reader read, with `front` put before it. -/
def prepend (front : Text) : Text × Text → Text × Text
  | (name, rest) => (front ++ name, rest)

/-- Reads as much of a name as there is. -/
def readName (opening : Text) (state : NameState) : Text → Except Refusal (Text × Text)
  | [] => endName opening state []
  | c :: s =>
    if isNameChar c then (readName opening .behindChar s).map (prepend [c])
    else if c = '%' then
      match s with
      | a :: b :: s' =>
        if isHexDigit a && isHexDigit b then
          (readName opening .behindChar s').map (prepend [c, a, b])
        else .error ⟨c :: s, .malformedTriplet⟩
      | _ => .error ⟨c :: s, .malformedTriplet⟩
    else if c = '.' then
      if state = .behindChar then (readName opening .behindDot s).map (prepend [c])
      else .error ⟨c :: s, .misplacedDot⟩
    else endName opening state (c :: s)

/-- Reads the digits behind a colon. -/
def readMaxLength (s : Text) : Except Refusal (Modifier × Text) :=
  let digits := s.takeWhile Char.isDigit
  if digits = [] then .error ⟨s, .missingDigits⟩
  else if digits.head? = some '0' then .error ⟨s, .leadingZero digits⟩
  else if digitsValue digits ≤ maxLengthLimit then
    .ok (.maxLength (digitsValue digits), s.dropWhile Char.isDigit)
  else .error ⟨s, .lengthOutOfRange digits⟩

/-- Whether a modifier starts here. -/
def startsModifier : Text → Bool
  | c :: _ => c = ':' || c = '*'
  | [] => false

/-- Reads the modifier behind the name `name`, if there is one, and refuses a second one. -/
def readModifier (name : Text) (s : Text) : Except Refusal (Option Modifier × Text) :=
  match s with
  | ':' :: s => do
    let (modifier, rest) ← readMaxLength s
    if startsModifier rest then .error ⟨rest, .secondModifier name⟩ else .ok (some modifier, rest)
  | '*' :: rest =>
    if startsModifier rest then .error ⟨rest, .secondModifier name⟩ else .ok (some .explode, rest)
  | _ => .ok (none, s)

/-- Reads a name and its modifier. -/
def readVarSpec (opening : Text) (s : Text) : Except Refusal (VarSpec × Text) := do
  let (name, s) ← readName opening .start s
  let (modifier, s) ← readModifier name s
  .ok (⟨name, modifier⟩, s)

/-- A successful answer that went through `map` comes from a successful answer. -/
theorem exists_of_map_eq_ok {α β : Type} {x : Except Refusal α} {f : α → β} {b : β}
    (h : x.map f = .ok b) : ∃ a, x = .ok a ∧ f a = b := by
  cases x with
  | error e => cases h
  | ok a => exact ⟨a, rfl, by injection h⟩

theorem readName_length {opening : Text} {state : NameState} {s name rest : Text}
    (h : readName opening state s = .ok (name, rest)) : rest.length ≤ s.length := by
  fun_induction readName opening state s generalizing name rest with
  | case1 state => cases state <;> simp_all [endName]
  | case2 state c s hc ih =>
    obtain ⟨⟨n, r⟩, hr, he⟩ := exists_of_map_eq_ok h
    have := ih hr
    simp_all [prepend]
    omega
  | case3 state a b s hx hc ih =>
    obtain ⟨⟨n, r⟩, hr, he⟩ := exists_of_map_eq_ok h
    have := ih hr
    simp_all [prepend]
    omega
  | case6 s hc hp ih =>
    obtain ⟨⟨n, r⟩, hr, he⟩ := exists_of_map_eq_ok h
    have := ih hr
    simp_all [prepend]
    omega
  | case8 state c s => cases state <;> simp_all [endName]
  | case4 | case5 | case7 => cases h

theorem readMaxLength_length {s rest : Text} {modifier : Modifier}
    (h : readMaxLength s = .ok (modifier, rest)) : rest.length ≤ s.length := by
  simp only [readMaxLength] at h
  split at h
  · cases h
  split at h
  · cases h
  split at h
  · cases h
    exact (List.dropWhile_suffix _).length_le
  · cases h

theorem readModifier_length {name s rest : Text} {modifier : Option Modifier}
    (h : readModifier name s = .ok (modifier, rest)) : rest.length ≤ s.length := by
  unfold readModifier at h
  split at h
  · rename_i s'
    cases hr : readMaxLength s' with
    | error e => rw [hr] at h; cases h
    | ok p =>
      have := readMaxLength_length hr
      simp only [hr, bind, Except.bind] at h
      split at h <;> cases h
      simp only [List.length_cons]
      omega
  · split at h <;> cases h
    simp
  · cases h
    exact Nat.le_refl _

theorem readVarSpec_length {opening s rest : Text} {spec : VarSpec}
    (h : readVarSpec opening s = .ok (spec, rest)) : rest.length ≤ s.length := by
  unfold readVarSpec at h
  cases hn : readName opening .start s with
  | error e => rw [hn] at h; cases h
  | ok p =>
    simp only [hn, bind, Except.bind] at h
    have h₁ := readName_length hn
    cases hm : readModifier p.1 p.2 with
    | error e => rw [hm] at h; cases h
    | ok q =>
      rw [hm] at h
      cases h
      exact Nat.le_trans (readModifier_length hm) h₁

/-- Reads variable specifications with commas between them up to the closing brace. -/
def readVarSpecs (opening : Text) (s : Text) : Except Refusal (List VarSpec × Text) :=
  match h : readVarSpec opening s with
  | .error e => .error e
  | .ok (_, []) => .error ⟨opening, .unterminatedExpression⟩
  | .ok (spec, c :: rest) =>
    if c = ',' then
      have : rest.length < s.length := readVarSpec_length h
      (readVarSpecs opening rest).map fun (specs, rest) => (spec :: specs, rest)
    else if c = '}' then .ok ([spec], rest)
    else .error ⟨c :: rest, .invalidCharacter c⟩
termination_by s.length

/-- Reads what stands behind an opening brace, through the closing brace. -/
def readExpression (s : Text) : Except Refusal (Expression × Text) :=
  let opening := '{' :: s
  match s with
  | [] => .error ⟨opening, .unterminatedExpression⟩
  | c :: s' =>
    match Operator.ofChar? c with
    | some op => (readVarSpecs opening s').map fun (specs, rest) => (⟨op, specs⟩, rest)
    | none =>
      if Operator.isKeptForLater c then .error ⟨s, .reservedOperator c⟩
      else (readVarSpecs opening s).map fun (specs, rest) => (⟨.simple, specs⟩, rest)

theorem readVarSpecs_length {opening s rest : Text} {specs : List VarSpec}
    (h : readVarSpecs opening s = .ok (specs, rest)) : rest.length < s.length := by
  fun_induction readVarSpecs opening s generalizing specs with
  | case3 s spec rest' hs hlt ih =>
    obtain ⟨⟨n, r⟩, hr, he⟩ := exists_of_map_eq_ok h
    cases he
    exact Nat.lt_trans (ih hr) hlt
  | case4 s spec rest' hs =>
    cases h
    exact readVarSpec_length hs
  | case1 | case2 | case5 => cases h

theorem readExpression_length {s rest : Text} {e : Expression}
    (h : readExpression s = .ok (e, rest)) : rest.length < s.length := by
  unfold readExpression at h
  split at h
  · cases h
  split at h
  · obtain ⟨⟨n, r⟩, hr, he⟩ := exists_of_map_eq_ok h
    cases he
    exact Nat.lt_succ_of_lt (readVarSpecs_length hr)
  split at h
  · cases h
  · obtain ⟨⟨n, r⟩, hr, he⟩ := exists_of_map_eq_ok h
    cases he
    exact readVarSpecs_length hr

/-- Puts a literal character before sections, into a literal that starts them if there is one. -/
def consLiteral (c : Char) : List Section → List Section
  | .literal text :: sections => .literal (c :: text) :: sections
  | sections => .literal [c] :: sections

/-- Reads a whole text as sections. -/
def readSections (s : Text) : Except Refusal (List Section) :=
  match s with
  | [] => .ok []
  | c :: s =>
    if c = '{' then
      match h : readExpression s with
      | .error e => .error e
      | .ok (e, rest) =>
        have : rest.length < s.length := readExpression_length h
        (readSections rest).map (.expression e :: ·)
    else if c = '}' then .error ⟨c :: s, .unexpectedClosingBrace⟩
    else (readSections s).map (consLiteral c)
termination_by s.length

/-- Reads a template from its notation. -/
def parse (s : Text) : Except SyntaxError Template :=
  match readSections s with
  | .ok sections => .ok ⟨sections⟩
  | .error r => .error ⟨Text.utf8Length s - Text.utf8Length r.rest, r.fault⟩

end Template

end UriTemplate
