import UriTemplate.Template.Basic

/-!
# The grammar of templates

The notation of templates as a grammar over texts, one predicate for each nonterminal and one
constructor for each alternative; the production is quoted beside it. Nothing here refers to a
reader. Names are the only nonterminal with a context condition in disguise: a dot stands between
two name characters and nowhere else, so a name starts and ends with a name character
(`VarName.head`).
-/

namespace UriTemplate.Grammar
set_option autoImplicit false

/-- `HEXDIG`, in either case. -/
def IsHexDigit (c : Char) : Prop :=
  ('0' ≤ c ∧ c ≤ '9') ∨ ('A' ≤ c ∧ c ≤ 'F') ∨ ('a' ≤ c ∧ c ≤ 'f')

/-- `varchar = ALPHA / DIGIT / "_" / "%" HEXDIG HEXDIG` -/
inductive VarChar : Text → Prop
  | letter {c : Char} : c.isAlpha = true → VarChar [c]
  | digit {c : Char} : c.isDigit = true → VarChar [c]
  | underscore : VarChar ['_']
  | triplet {a b : Char} : IsHexDigit a → IsHexDigit b → VarChar ['%', a, b]

/-- `*( ["."] varchar )` -/
inductive VarCharTail : Text → Prop
  | nil : VarCharTail []
  | plain {w s : Text} : VarChar w → VarCharTail s → VarCharTail (w ++ s)
  | dotted {w s : Text} : VarChar w → VarCharTail s → VarCharTail ('.' :: (w ++ s))

/-- `varname = varchar *( ["."] varchar )` -/
inductive VarName : Text → Prop
  | mk {w s : Text} : VarChar w → VarCharTail s → VarName (w ++ s)

/-- `max-length = %x31-39 0*3DIGIT` -/
inductive MaxLength : Text → Prop
  | mk {d : Char} {ds : Text} : d.isDigit = true → d ≠ '0' → (∀ c ∈ ds, c.isDigit = true) →
    ds.length ≤ 3 → MaxLength (d :: ds)

/-- `varspec = varname [ ":" max-length / "*" ]` -/
inductive VarSpec : Text → Prop
  | plain {n : Text} : VarName n → VarSpec n
  | maxLength {n l : Text} : VarName n → MaxLength l → VarSpec (n ++ ':' :: l)
  | explode {n : Text} : VarName n → VarSpec (n ++ ['*'])

/-- `variable-list = varspec *( "," varspec )` -/
inductive VariableList : Text → Prop
  | one {v : Text} : VarSpec v → VariableList v
  | more {v s : Text} : VarSpec v → VariableList s → VariableList (v ++ ',' :: s)

/-- `[ "+" / "#" / "." / "/" / ";" / "?" / "&" ]` -/
inductive OperatorMark : Text → Prop
  | absent : OperatorMark []
  | present {c : Char} : c ∈ ['+', '#', '.', '/', ';', '?', '&'] → OperatorMark [c]

/-- `expression = "{" [ operator ] variable-list "}"` -/
inductive Expression : Text → Prop
  | mk {o s : Text} : OperatorMark o → VariableList s → Expression ('{' :: (o ++ s ++ ['}']))

/-- `template = *( literal-char / expression )`, where `literal-char` is any character but the two
braces. -/
inductive Template : Text → Prop
  | nil : Template []
  | literal {c : Char} {s : Text} : c ≠ '{' → c ≠ '}' → Template s → Template (c :: s)
  | expression {e s : Text} : Expression e → Template s → Template (e ++ s)

end UriTemplate.Grammar
