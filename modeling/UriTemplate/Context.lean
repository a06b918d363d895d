import UriTemplate.Json.Read
import UriTemplate.Json.Print
import UriTemplate.Text.Blank
import UriTemplate.Yaml.Content

/-!
# Contexts

A context gives variables their values. It is read from JSON or YAML text, whose top level must be
a mapping (`parseContext`); the format follows from a file's name (`ContextFormat.ofPath`). Single
variables are overridden with texts, each given as `NAME=VALUE` (`parseAssignment`,
`applyOverrides`).
-/

namespace UriTemplate

/-- The formats that a context is read from. -/
inductive ContextFormat
  | json
  | yaml
deriving DecidableEq

/-- The parts of a path, without empty ones and without dots for the same directory. -/
def pathParts (path : Text) : List Text :=
  (path.splitOn '/').filter fun part => part ≠ [] ∧ part ≠ ['.']

/-- The text behind the last dot of a file's name, unless the dot starts the name. -/
def extension? (name : Text) : Option Text :=
  if name = "..".toList then none
  else
    let behind := (name.reverse.takeWhile (· ≠ '.')).reverse
    if behind.length + 1 < name.length then some behind else none

namespace ContextFormat

/-- A file whose name ends in `.json`, in letters of either case, is JSON; any other is YAML. -/
def ofPath (path : Text) : ContextFormat :=
  match (pathParts path).getLast?.bind extension? with
  | some e => if e.map Char.toLower = "json".toList then json else yaml
  | none => yaml

end ContextFormat

/-- Why a text is no context. -/
inductive ContextError
  | notJson
  | notYaml
  /-- The top level is not a mapping. -/
  | notMapping (found : Json)

/-- The wording of an error; there is none of its own for a text that is not of the format. -/
def ContextError.message? : ContextError → Option Text
  | notJson | notYaml => none
  | notMapping found =>
    some ("Context must be a mapping of variable names, found ".toList ++ found.compact)

/-- The context without variables. -/
def emptyContext : Value := .map []

/-- The value of a text in a format. -/
def readDocument (format : ContextFormat) (text : Text) : Except ContextError Json :=
  match format with
  | .json => (Json.parse? text).elim (.error .notJson) .ok
  | .yaml => (Yaml.parse? text).elim (.error .notYaml) .ok

/-- Reads a context. A blank text and null are the context without variables. -/
def parseContext (format : ContextFormat) (text : Text) : Except ContextError Value :=
  if text.isBlank then .ok emptyContext
  else
    match readDocument format text with
    | .error e => .error e
    | .ok .null => .ok emptyContext
    | .ok (.object fields) => .ok (Json.object fields).toValue
    | .ok found => .error (.notMapping found)

/-- A text that is no assignment. -/
structure AssignmentError where
  text : Text
deriving DecidableEq

/-- The wording of the error. -/
def AssignmentError.message (e : AssignmentError) : Text :=
  "Expected NAME=VALUE, got '".toList ++ e.text ++ ['\'']

/-- Reads an assignment: a name that is not empty, the first equals sign, and a value. -/
def parseAssignment (text : Text) : Except AssignmentError (Text × Text) :=
  match splitFirst? (· = '=') text with
  | some (name, value) => if name = [] then .error ⟨text⟩ else .ok (name, value)
  | none => .error ⟨text⟩

/-- The entries of a map; other contexts have none. -/
def Value.entries : Value → List (Text × Value)
  | .map entries => entries
  | _ => []

/-- The context with some variables set to texts, each in the place that it has, or at the end. -/
def applyOverrides (context : Value) (overrides : List (Text × Text)) : Value :=
  .map (overrides.foldl (fun entries o => putEntry o.1 (.ofText o.2) entries) context.entries)

end UriTemplate
