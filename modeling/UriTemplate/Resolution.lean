import UriTemplate.Value

/-!
# Resolution of variables

A variable is looked up in a context and its value classified into one of four shapes: undefined,
a text, a list of texts, or pairs of texts. Values nested deeper, and lists that mix families of
scalars, have no shape; a `ShapeError` names the variable and says why.
-/

namespace UriTemplate

/-- What a variable stands for in an expansion. -/
inductive Shape
  | undefined
  | scalar (text : Text)
  | list (items : List Text)
  | pairs (entries : List (Text × Text))
deriving DecidableEq

/-- Why a value cannot be expanded. -/
inductive ShapeFault
  /-- An item of a list is not a scalar. -/
  | compositeItem (found : Form)
  /-- A list holds scalars of two families. -/
  | mixedItems (expected found : Family)
  /-- The value of an entry is not a scalar. -/
  | nestedEntry (key : Text) (found : Form)
  /-- A limit of length is put on a list. -/
  | limitedList (length : Nat)
  /-- A limit of length is put on pairs. -/
  | limitedPairs (length : Nat)
deriving DecidableEq

/-- The wording of a fault. -/
def ShapeFault.message : ShapeFault → Text
  | compositeItem found => "list items must be scalars, found a ".toList ++ found.name
  | mixedItems expected found =>
    "list mixes ".toList ++ expected.name ++ " and ".toList ++ found.name ++ " values".toList
  | nestedEntry key found =>
    "entry '".toList ++ key ++ "' holds a nested ".toList ++ found.name ++
      ", only one level of keys is supported".toList
  | limitedList length =>
    "max-length ':".toList ++ numeral length ++ "' cannot be applied to a list".toList
  | limitedPairs length =>
    "max-length ':".toList ++ numeral length ++ "' cannot be applied to a associative array".toList

/-- A fault of the value of a variable. -/
structure ShapeError where
  name : Text
  fault : ShapeFault
deriving DecidableEq

/-- The wording of an error with the variable's name. -/
def ShapeError.message (e : ShapeError) : Text :=
  "Unsupported value shape for variable '".toList ++ e.name ++ "': ".toList ++ e.fault.message

namespace Shape

/-- The shape of a list of texts, which is undefined without any. -/
def ofItems : List Text → Shape
  | [] => undefined
  | items => list items

/-- The shape of pairs of texts, which is undefined without any. -/
def ofEntries : List (Text × Text) → Shape
  | [] => undefined
  | entries => pairs entries

end Shape

/-- The texts of the items of a list that are not null, which must all be scalars of one family. -/
def itemTexts (family : Option Family) : List Value → Except ShapeFault (List Text)
  | [] => .ok []
  | .null :: items => itemTexts family items
  | .scalar s :: items =>
    match family with
    | none => (itemTexts (some s.family) items).map (s.canonical :: ·)
    | some expected =>
      if expected = s.family then (itemTexts family items).map (s.canonical :: ·)
      else .error (.mixedItems expected s.family)
  | item :: _ => .error (.compositeItem item.form)

/-- The texts of the entries that are not null, which must all be scalars. -/
def entryTexts : List (Text × Value) → Except ShapeFault (List (Text × Text))
  | [] => .ok []
  | (_, .null) :: entries => entryTexts entries
  | (key, .scalar s) :: entries => (entryTexts entries).map ((key, s.canonical) :: ·)
  | (key, value) :: _ => .error (.nestedEntry key value.form)

/-- The properties of a record that it lists and has, as entries of a map. -/
def recordEntries (names : List Text) (property? : Text → Option Value) : List (Text × Value) :=
  names.filterMap fun name => (property? name).map (name, ·)

namespace Value

/-- The shape of a value. -/
def shape : Value → Except ShapeFault Shape
  | null => .ok .undefined
  | scalar s => .ok (.scalar s.canonical)
  | list items => (itemTexts none items).map Shape.ofItems
  | map entries => (entryTexts entries).map Shape.ofEntries
  | record names property? => (entryTexts (recordEntries names property?)).map Shape.ofEntries

/-- The value of a name: the first entry of a map or the property of a record with this name.
Other contexts have no names. -/
def lookup? : Value → Text → Option Value
  | map entries, name => (entries.find? fun e => e.1 = name).map (·.2)
  | record _ property?, name => property? name
  | _, _ => none

/-- The shape of a variable in a context. -/
def resolve (context : Value) (name : Text) : Except ShapeError Shape :=
  match context.lookup? name with
  | none => .ok .undefined
  | some value => value.shape.mapError fun fault => ⟨name, fault⟩

end Value

end UriTemplate
