import UriTemplate.Json.Basic

/-!
# Self-describing data

A `Datum` is what a host record looks like when it describes itself: scalars, sequences and maps
whose keys are data too. It becomes a value of a context by way of JSON: integers must fit into 64
bits, numbers of 32 bits are widened, numbers that are not finite become null, and keys must be
scalars, which are written out. `Datum.toValue` gives the value or the reason why there is none.
-/

namespace UriTemplate

/-- Data as a host record describes itself. -/
inductive Datum
  | absent
  | string (text : Text)
  | bool (value : Bool)
  | char (value : Char)
  | integer (value : Int)
  | double (value : Binary .double)
  | single (value : Binary .single)
  | sequence (items : List Datum)
  | mapping (entries : List (Datum × Datum))

/-- Why data have no JSON form. -/
inductive DatumFault
  | numberOutOfRange
  | keyNotString
  | keyNotFinite
deriving DecidableEq

/-- The wording of a fault. -/
def DatumFault.message : DatumFault → Text
  | numberOutOfRange => "number out of range".toList
  | keyNotString => "key must be a string".toList
  | keyNotFinite => "float key must be finite (got NaN or +/-inf)".toList

namespace Datum

/-- The key that a datum is written as. -/
def key : Datum → Except DatumFault Text
  | string s => .ok s
  | bool b => .ok (boolText b)
  | char c => .ok [c]
  | integer n => .ok (integerNumeral n)
  | double x => if x.isFinite then .ok (FloatStyle.json.write x) else .error .keyNotFinite
  | single x => if x.isFinite then .ok (FloatStyle.jsonSingle.write x) else .error .keyNotFinite
  | absent | sequence _ | mapping _ => .error .keyNotString

/-- The JSON number of an integer. -/
def integerJson (n : Int) : Except DatumFault Json :=
  (JsonNumber.ofInteger? n).elim (.error .numberOutOfRange) fun x => .ok (.number x)

mutual

/-- The JSON form of data. -/
def toJson : Datum → Except DatumFault Json
  | absent => .ok .null
  | string s => .ok (.string s)
  | bool b => .ok (.bool b)
  | char c => .ok (.string [c])
  | integer n => integerJson n
  | double x => .ok (.ofFloat x)
  | single x => .ok (.ofFloat (x.convert .double))
  | sequence items => do .ok (.array (← toItems items))
  | mapping entries => do .ok (.object (distinctEntries (← toFields entries)))

/-- The JSON forms of items. -/
def toItems : List Datum → Except DatumFault (List Json)
  | [] => .ok []
  | item :: items => do
    let j ← item.toJson
    let js ← toItems items
    .ok (j :: js)

/-- The JSON fields of entries. -/
def toFields : List (Datum × Datum) → Except DatumFault (List (Text × Json))
  | [] => .ok []
  | (k, item) :: entries => do
    let name ← k.key
    let j ← item.toJson
    let fields ← toFields entries
    .ok ((name, j) :: fields)

end

/-- The value of a context with the same content. -/
def toValue (d : Datum) : Except DatumFault Value := d.toJson.map Json.toValue

end Datum

end UriTemplate
