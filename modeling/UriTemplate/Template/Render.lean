import UriTemplate.Json.Print
import UriTemplate.Template.Basic

/-!
# Templates as JSON

`Template.toJson` is the tree of a template: each section with its kind, each expression with the
name of its operator, and each variable specification with its name and its modifier.
-/

namespace UriTemplate

/-- The tree of a modifier. -/
def Modifier.toJson : Modifier → Json
  | .maxLength length =>
    .object [("prefix".toList, .number (.natural (UInt64.ofNat length)))]
  | .explode => .string "explode".toList

/-- The tree of a variable specification. -/
def VarSpec.toJson (spec : VarSpec) : Json :=
  .object [("name".toList, .string spec.name),
    ("modifier".toList, (spec.modifier.map Modifier.toJson).getD .null)]

/-- The tree of an expression. -/
def Expression.toJson (e : Expression) : Json :=
  .object [("operator".toList, .string e.operator.tag),
    ("var_specs".toList, .array (e.varSpecs.map VarSpec.toJson))]

/-- The tree of a section. -/
def Section.toJson : Section → Json
  | .literal text =>
    .object [("kind".toList, .string "literal".toList), ("value".toList, .string text)]
  | .expression e =>
    .object [("kind".toList, .string "expression".toList), ("value".toList, e.toJson)]

/-- The tree of a template. -/
def Template.toJson (t : Template) : Json :=
  .object [("sections".toList, .array (t.sections.map Section.toJson))]

end UriTemplate
