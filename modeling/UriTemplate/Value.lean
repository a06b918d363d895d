import UriTemplate.Scalar

/-!
# Values

What a context holds: nothing, a scalar, a list, a map with ordered entries, or a record, which
offers the names of its properties and answers for each name with a value or with nothing. Host
data become values by the functions `ofInteger`, `ofOption`, `ofTexts`, `ofSet`, `ofOrderedMap`
and `ofMap`.
-/

namespace UriTemplate

/-- A value of a context. -/
inductive Value
  | null
  | scalar (scalar : Scalar)
  | list (items : List Value)
  | map (entries : List (Text × Value))
  | record (names : List Text) (property? : Text → Option Value)

instance : Inhabited Value := ⟨.null⟩

/-- The five forms of values. -/
inductive Form
  | null
  | scalar
  | list
  | map
  | record
deriving DecidableEq

/-- The name of a form in a message. -/
def Form.name : Form → Text
  | .null => "null".toList
  | .scalar => "scalar".toList
  | .list => "list".toList
  | .map => "map".toList
  | .record => "record".toList

/-- The types of integers that host data come in. -/
inductive IntegerType
  /-- With a sign, in so many bits. -/
  | signed (bits : Nat)
  /-- Without a sign, in so many bits. -/
  | unsigned (bits : Nat)
deriving DecidableEq

namespace IntegerType

/-- The least integer of a type. -/
def least : IntegerType → Int
  | signed bits => -twoPow (bits - 1)
  | unsigned _ => 0

/-- The greatest integer of a type. -/
def greatest : IntegerType → Int
  | signed bits => twoPow (bits - 1) - 1
  | unsigned bits => twoPow bits - 1

/-- Whether a type has an integer. -/
def Holds (t : IntegerType) (n : Int) : Prop := t.least ≤ n ∧ n ≤ t.greatest

instance (t : IntegerType) (n : Int) : Decidable (t.Holds n) := by
  unfold Holds
  infer_instance

end IntegerType

/-- Puts an entry at the end of entries or, if its key is there already, its value at the place of
the key. -/
def putEntry {α : Type} (key : Text) (value : α) : List (Text × α) → List (Text × α)
  | [] => [(key, value)]
  | (k, v) :: entries =>
    if k = key then (k, value) :: entries else (k, v) :: putEntry key value entries

/-- Entries without repeated keys: each key keeps its first place and its last value. -/
def distinctEntries {α : Type} (entries : List (Text × α)) : List (Text × α) :=
  entries.foldl (fun acc e => putEntry e.1 e.2 acc) []

/-- Whether a text comes before another in the order of code points. -/
def textBefore (s t : Text) : Bool := s < t

namespace Value

/-- The form of a value. -/
def form : Value → Form
  | null => .null
  | scalar _ => .scalar
  | list _ => .list
  | map _ => .map
  | record .. => .record

/-- Whether a value is nothing. -/
def isNull : Value → Bool
  | null => true
  | _ => false

/-- The value of a text. -/
def ofText (s : Text) : Value := scalar (.string s)

/-- The value of a wide integer: a word if it fits, then a decimal number, and a text beyond. -/
def ofWideInteger (n : Int) : Value :=
  if (IntegerType.signed 64).Holds n then scalar (.int (Int64.ofInt n))
  else match Decimal.ofScaled? n 0 with
    | some d => scalar (.decimal d)
    | none => scalar (.string (integerNumeral n))

/-- The value of an integer of a type. Up to 64 bits the type decides between words with and
without a sign; beyond, the integer does. -/
def ofInteger : IntegerType → Int → Value
  | .signed bits, n => if bits ≤ 64 then scalar (.int (Int64.ofInt n)) else ofWideInteger n
  | .unsigned bits, n =>
    if bits ≤ 64 ∨ (IntegerType.unsigned 64).Holds n then scalar (.uint (UInt64.ofNat n.toNat))
    else ofWideInteger n

/-- The value of an optional value. -/
def ofOption : Option Value → Value
  | some v => v
  | none => null

/-- The list of texts. -/
def ofTexts (texts : List Text) : Value := list (texts.map ofText)

/-- The list of the members of a set, in ascending order. -/
def ofSet {α : Type} [DecidableEq α] (before : α → α → Bool) (value : α → Value)
    (members : List α) : Value :=
  list (((members.mergeSort fun a b => !before b a).eraseDups).map value)

/-- The map of the last entries of each key, in the order of first occurrence. -/
def ofMap (entries : List (Text × Value)) : Value := map (distinctEntries entries)

/-- The map of the last entries of each key, in ascending order of keys. -/
def ofOrderedMap (entries : List (Text × Value)) : Value :=
  map ((distinctEntries entries).mergeSort fun a b => !textBefore b.1 a.1)

/-- The record that lists `names` and answers with the first property of a name. -/
def ofProperties (names : List Text) (properties : List (Text × Value)) : Value :=
  record names fun name => (properties.find? fun p => p.1 = name).map (·.2)

mutual

/-- A value as a reader of logs sees it. -/
def diagnostic : Value → Text
  | null => "Null".toList
  | scalar s => "Scalar(".toList ++ s.diagnostic ++ [')']
  | list items => "List([".toList ++ diagnosticItems items ++ "])".toList
  | map entries => "Map([".toList ++ diagnosticEntries entries ++ "])".toList
  | record names _ =>
    "Record([".toList ++ List.intercalate ", ".toList (names.map quoted) ++ "])".toList

/-- Items with commas between them. -/
def diagnosticItems : List Value → Text
  | [] => []
  | [v] => v.diagnostic
  | v :: items => v.diagnostic ++ ", ".toList ++ diagnosticItems items

/-- Entries as pairs with commas between them. -/
def diagnosticEntries : List (Text × Value) → Text
  | [] => []
  | [(key, v)] => '(' :: quoted key ++ ", ".toList ++ v.diagnostic ++ [')']
  | (key, v) :: entries =>
    '(' :: quoted key ++ ", ".toList ++ v.diagnostic ++ "), ".toList ++ diagnosticEntries entries

end

end Value

end UriTemplate
