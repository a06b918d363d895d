import UriTemplate.Percent
import UriTemplate.Resolution
import UriTemplate.Template.Read

/-!
# Expansion

A template is expanded by copying its literals and writing for each expression the units of its
defined variables, joined by the operator's separator, behind the operator's first character; an
expression without a defined variable writes nothing. A unit is a text, the items of a list or the
pairs of a map, encoded and, depending on operator and modifier, joined by commas or separators
and named.
-/

namespace UriTemplate

/-- A name with its value, or with the operator's mark of an empty value. -/
def named (op : Operator) (name value : Text) : Text :=
  if value = [] then name ++ op.ifEmpty else name ++ '=' :: value

/-- A value behind its variable's name, if the operator wants names. -/
def nameIfWanted (op : Operator) (name value : Text) : Text :=
  if op.isNamed then named op name value else value

namespace VarSpec

/-- The unit of a text. -/
def scalarUnit (op : Operator) (spec : VarSpec) (text : Text) : Text :=
  let kept := match spec.maxLength? with
    | some length => Percent.truncate op.allowsReserved length text
    | none => text
  nameIfWanted op spec.name (Percent.encode op.allowsReserved kept)

/-- The unit of a list. -/
def listUnit (op : Operator) (spec : VarSpec) (items : List Text) : Text :=
  let encoded := items.map (Percent.encode op.allowsReserved)
  if spec.isExploded then List.intercalate [op.separator] (encoded.map (nameIfWanted op spec.name))
  else nameIfWanted op spec.name (List.intercalate [','] encoded)

/-- A key with its value, both encoded. -/
def pairText (op : Operator) (key value : Text) : Text :=
  if op.isNamed then named op key value else key ++ '=' :: value

/-- The unit of pairs. -/
def pairsUnit (op : Operator) (spec : VarSpec) (entries : List (Text × Text)) : Text :=
  let encode := Percent.encode op.allowsReserved
  if spec.isExploded then
    List.intercalate [op.separator]
      (entries.map fun (key, value) => pairText op (encode key) (encode value))
  else
    nameIfWanted op spec.name
      (List.intercalate [','] (entries.flatMap fun (key, value) => [encode key, encode value]))

/-- The unit of a shape, none if it is undefined. Only texts may be limited in length. -/
def unitOfShape? (op : Operator) (spec : VarSpec) (shape : Shape) :
    Except ShapeError (Option Text) :=
  match shape, spec.maxLength? with
  | .undefined, _ => .ok none
  | .scalar text, _ => .ok (some (spec.scalarUnit op text))
  | .list _, some length => .error ⟨spec.name, .limitedList length⟩
  | .list items, none => .ok (some (spec.listUnit op items))
  | .pairs _, some length => .error ⟨spec.name, .limitedPairs length⟩
  | .pairs entries, none => .ok (some (spec.pairsUnit op entries))

/-- The unit of a variable in a context. -/
def unit? (op : Operator) (context : Value) (spec : VarSpec) : Except ShapeError (Option Text) := do
  let shape ← context.resolve spec.name
  spec.unitOfShape? op shape

end VarSpec

/-- The units of the defined ones of some variables. -/
def unitsOf (op : Operator) (context : Value) : List VarSpec → Except ShapeError (List Text)
  | [] => .ok []
  | spec :: specs => do
    let unit ← spec.unit? op context
    let units ← unitsOf op context specs
    .ok (unit.toList ++ units)

/-- Units behind the operator's first character, with the separator between them. -/
def joinUnits (op : Operator) (units : List Text) : Text :=
  if units = [] then [] else op.first ++ List.intercalate [op.separator] units

/-- The expansion of an expression. -/
def Expression.expand (context : Value) (e : Expression) : Except ShapeError Text := do
  let units ← unitsOf e.operator context e.varSpecs
  .ok (joinUnits e.operator units)

/-- The expansion of a section. -/
def Section.expand (context : Value) : Section → Except ShapeError Text
  | .literal text => .ok text
  | .expression e => e.expand context

/-- The expansion of sections, one after the other. -/
def expandSections (context : Value) : List Section → Except ShapeError Text
  | [] => .ok []
  | s :: sections => do
    let text ← s.expand context
    let rest ← expandSections context sections
    .ok (text ++ rest)

/-- The expansion of a template; the first variable without a shape ends it. -/
def Template.expand (t : Template) (context : Value) : Except ShapeError Text :=
  expandSections context t.sections

/-- Why a text cannot be expanded as a template. -/
inductive ExpansionError
  | malformed (error : SyntaxError)
  | unsupported (error : ShapeError)
deriving DecidableEq

/-- The wording of an error. -/
def ExpansionError.message : ExpansionError → Text
  | malformed e => e.message
  | unsupported e => e.message

/-- Reads a template and expands it. -/
def expandText (template : Text) (context : Value) : Except ExpansionError Text :=
  match Template.parse template with
  | .error e => .error (.malformed e)
  | .ok t => (t.expand context).mapError .unsupported

end UriTemplate
