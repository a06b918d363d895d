import UriTemplate.Template.Operator

/-!
# Templates

A template is a list of sections, each a literal text or an expression; an expression has an
operator and a list of variable specifications, each a name with at most one modifier. `toText`
writes a template in its own notation. Templates built by hand need not be in the form that
reading produces: names, literals and lengths are arbitrary.
-/

namespace UriTemplate

/-- What a variable specification says about the value beyond its name. -/
inductive Modifier
  /-- Keep at most so many units of a text. -/
  | maxLength (length : Nat)
  /-- Write the members of a composite value one by one. -/
  | explode
deriving DecidableEq

/-- A reference to a variable. -/
structure VarSpec where
  name : Text
  modifier : Option Modifier
deriving DecidableEq

/-- An operator with the variables that it applies to. -/
structure Expression where
  operator : Operator
  varSpecs : List VarSpec
deriving DecidableEq

/-- A literal text or an expression. -/
inductive Section
  | literal (text : Text)
  | expression (expression : Expression)
deriving DecidableEq

/-- A list of sections. -/
structure Template where
  sections : List Section
deriving DecidableEq

/-- The modifier as it is written behind a name. -/
def Modifier.toText : Modifier → Text
  | .maxLength length => ':' :: numeral length
  | .explode => ['*']

namespace VarSpec

/-- The reference to a variable without a modifier. -/
def plain (name : Text) : VarSpec := ⟨name, none⟩

/-- The same variable cut to at most `length` units, in place of any other modifier. -/
def withMaxLength (spec : VarSpec) (length : Nat) : VarSpec :=
  { spec with modifier := some (.maxLength length) }

/-- The same variable exploded, in place of any other modifier. -/
def withExplode (spec : VarSpec) : VarSpec := { spec with modifier := some .explode }

/-- The greatest number of units that is kept, if there is a limit. -/
def maxLength? (spec : VarSpec) : Option Nat :=
  match spec.modifier with
  | some (.maxLength length) => some length
  | _ => none

/-- Whether the members of a composite value are written one by one. -/
def isExploded (spec : VarSpec) : Bool := spec.modifier = some .explode

/-- The specification as it is written in an expression. -/
def toText (spec : VarSpec) : Text :=
  spec.name ++ match spec.modifier with
    | some modifier => modifier.toText
    | none => []

end VarSpec

/-- The expression in braces. -/
def Expression.toText (e : Expression) : Text :=
  '{' :: e.operator.toText ++ List.intercalate [','] (e.varSpecs.map VarSpec.toText) ++ ['}']

/-- The section as it is written in a template. -/
def Section.toText : Section → Text
  | .literal text => text
  | .expression e => e.toText

/-- The variable specifications of a section, in order. -/
def Section.varSpecs : Section → List VarSpec
  | .literal _ => []
  | .expression e => e.varSpecs

namespace Template

/-- The template in its own notation. -/
def toText (t : Template) : Text := t.sections.flatMap Section.toText

/-- Every variable specification of the template, in order. -/
def varSpecs (t : Template) : List VarSpec := t.sections.flatMap Section.varSpecs

end Template

end UriTemplate
