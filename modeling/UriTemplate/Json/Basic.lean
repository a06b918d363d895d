import UriTemplate.Value

/-!
# JSON values

A JSON value with ordered fields. Numbers are words without sign, negative words or finite
floating-point numbers, as they are read. `Json.toValue` makes the value of a context from it.
-/

namespace UriTemplate

/-- A number of a JSON text. -/
inductive JsonNumber
  | natural (value : UInt64)
  | negative (value : Int64)
  | real (value : Binary .double)
deriving DecidableEq

/-- The number of an integer of at most 64 bits. -/
def JsonNumber.ofInteger? (n : Int) : Option JsonNumber :=
  if (IntegerType.unsigned 64).Holds n then some (natural (UInt64.ofNat n.toNat))
  else if (IntegerType.signed 64).Holds n then some (negative (Int64.ofInt n))
  else none

/-- A JSON value. -/
inductive Json
  | null
  | bool (value : Bool)
  | number (value : JsonNumber)
  | string (text : Text)
  | array (items : List Json)
  | object (fields : List (Text × Json))

/-- The scalar of a number: with a sign if it fits, then without, and else a floating-point
number. -/
def JsonNumber.toScalar : JsonNumber → Scalar
  | natural n => if (IntegerType.signed 64).Holds n.toNat then .int n.toInt64 else .uint n
  | negative n => .int n
  | real x => .float x

namespace Json

/-- The number of a floating-point number; infinities and no number become null. -/
def ofFloat (x : Binary .double) : Json := if x.isFinite then number (.real x) else null

mutual

/-- The value of a context with the same content. -/
def toValue : Json → Value
  | null => .null
  | bool b => .scalar (.bool b)
  | number n => .scalar n.toScalar
  | string s => .ofText s
  | array items => .list (toValues items)
  | object fields => .map (toEntries fields)

/-- The values of items. -/
def toValues : List Json → List Value
  | [] => []
  | item :: items => item.toValue :: toValues items

/-- The entries of fields. -/
def toEntries : List (Text × Json) → List (Text × Value)
  | [] => []
  | (key, item) :: fields => (key, item.toValue) :: toEntries fields

end

end Json

end UriTemplate
