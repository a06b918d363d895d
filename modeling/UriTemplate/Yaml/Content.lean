import UriTemplate.Json.Basic
import UriTemplate.Yaml.Reference

/-!
# Content of YAML nodes

A YAML document is read as a JSON value. A plain scalar without tag is null, a truth value, an
integer, a floating-point number or a text, in this order, by the way it is written; a tag of the
core schema asks for one of these kinds, and other scalars are texts. Integers must fit into 64
bits unless they need more than 128, where they count as floating-point numbers. Keys are scalars
and count as they are written.
-/

namespace UriTemplate.Yaml

/-- How deep sequences and mappings may be nested. -/
def maxDepth : Nat := 128

/-- Whether a text stands for null. -/
def isNullWord (s : Text) : Bool := s ∈ ["null", "Null", "NULL", "~"].map String.toList

/-- The truth value that a text stands for. -/
def boolWord? (s : Text) : Option Bool :=
  if s ∈ ["true", "True", "TRUE"].map String.toList then some true
  else if s ∈ ["false", "False", "FALSE"].map String.toList then some false
  else none

/-- Whether a text consists of several digits that start with zero, behind an optional sign. Such a
text is no number. -/
def isZeroPadded (s : Text) : Bool :=
  match (if s.head? = some '+' ∨ s.head? = some '-' then s.tail else s) with
  | '0' :: c :: s => (c :: s).all Char.isDigit
  | _ => false

/-- The number that digits of a base up to 16 write, of which there must be one. -/
def baseValue? (base : Nat) (digits : Text) : Option Nat :=
  if digits = [] then none
  else digits.foldlM (fun n c => (hexValue? c).bind fun d =>
    if d < base then some (base * n + d) else none) 0

/-- The integer that a text writes: in decimal, or in base 16, 8 or 2 behind `0x`, `0o` or `0b`. -/
def unsignedWord? : Text → Option Nat
  | '0' :: 'x' :: s => baseValue? 16 s
  | '0' :: 'o' :: s => baseValue? 8 s
  | '0' :: 'b' :: s => baseValue? 2 s
  | s => baseValue? 10 s

/-- The integer that a text writes with an optional sign. -/
def integerWord? (s : Text) : Option Int :=
  if isZeroPadded s then none
  else match s with
    | '+' :: s => (unsignedWord? s).map Int.ofNat
    | '-' :: s => (unsignedWord? s).map fun n => -Int.ofNat n
    | s => (unsignedWord? s).map Int.ofNat

/-- Whether an integer fits into 128 bits, with a sign or without. -/
def fitsWide (n : Int) : Bool :=
  (IntegerType.signed 128).Holds n || (IntegerType.unsigned 128).Holds n

/-- The number of an integer of at most 64 bits. -/
def integerJson? (n : Int) : Option Json := (JsonNumber.ofInteger? n).map Json.number

/-- The pattern of the number of 64 bits nearest to `digits · 10 ^ exponent`. Beyond a thousand
decimal places the size alone decides. -/
def nearestDouble (digits : Text) (exponent : Int) : Nat :=
  let n := digitsValue digits
  let size := exponent + (numeral n).length
  if n = 0 ∨ size < -1000 then 0
  else if 1000 < size then Format.double.infinity
  else Format.double.roundDecimal n exponent

/-- The exponent behind the digits of a number: none, or a letter with an optional sign and
digits. -/
def exponentWord? : Text → Option Int
  | [] => some 0
  | c :: s =>
    if c = 'e' ∨ c = 'E' then
      match s with
      | '-' :: s => if s ≠ [] ∧ s.all Char.isDigit then some (-Int.ofNat (digitsValue s)) else none
      | '+' :: s => if s ≠ [] ∧ s.all Char.isDigit then some (Int.ofNat (digitsValue s)) else none
      | s => if s ≠ [] ∧ s.all Char.isDigit then some (Int.ofNat (digitsValue s)) else none
    else none

/-- The finite number that digits with at most one point and an exponent write. -/
def decimalWord? (negative : Bool) (s : Text) : Option (Binary .double) := do
  let whole := s.takeWhile Char.isDigit
  let rest := s.drop whole.length
  let (fraction, rest) := match rest with
    | '.' :: rest => (rest.takeWhile Char.isDigit, rest.dropWhile Char.isDigit)
    | rest => ([], rest)
  let exponent ← exponentWord? rest
  if whole = [] ∧ fraction = [] then none
  else
    let pattern := nearestDouble (whole ++ fraction) (exponent - Int.ofNat fraction.length)
    if pattern < Format.double.infinity then some (.ofPattern negative pattern) else none

/-- The words for infinity behind a sign. -/
def isInfinityWord (s : Text) : Bool := s ∈ [".inf", ".Inf", ".INF"].map String.toList

/-- The floating-point number that a text writes. -/
def floatWord? (s : Text) : Option (Binary .double) :=
  if s ∈ [".nan", ".NaN", ".NAN"].map String.toList then
    some (.ofPattern false (Format.double.infinity + 1))
  else match s with
    | '+' :: s =>
      if isInfinityWord s then some (.ofPattern false Format.double.infinity)
      else decimalWord? false s
    | '-' :: s =>
      if isInfinityWord s then some (.ofPattern true Format.double.infinity)
      else decimalWord? true s
    | s =>
      if isInfinityWord s then some (.ofPattern false Format.double.infinity)
      else decimalWord? false s

/-- The value of a plain scalar without tag. -/
def plainJson? (s : Text) : Option Json :=
  if s = [] || isNullWord s then some .null
  else match boolWord? s with
    | some b => some (.bool b)
    | none =>
      match integerWord? s with
      | some n =>
        if fitsWide n then integerJson? n
        else some ((floatWord? s).elim (.string s) Json.ofFloat)
      | none =>
        if isZeroPadded s then some (.string s)
        else some ((floatWord? s).elim (.string s) Json.ofFloat)

/-- The value of a scalar. A tag that is local to the document has none. -/
def scalarJson? (tag : Option Tag) (text : Text) (isPlain : Bool) : Option Json :=
  match tag with
  | none => if isPlain then plainJson? text else some (.string text)
  | some t =>
    if t.isLocal then none
    else if t = Tag.core "bool" then (boolWord? text).map .bool
    else if t = Tag.core "int" then (integerWord? text).bind integerJson?
    else if t = Tag.core "float" then (floatWord? text).map Json.ofFloat
    else if t = Tag.core "null" then (if isNullWord text then some .null else none)
    else if t.isMarked && isPlain then plainJson? text
    else some (.string text)

/-- Whether a collection may have a tag, which may not be local to the document. -/
def allowsTag (tag : Option Tag) : Bool := !(tag.any Tag.isLocal)

namespace Node

/-- The key that a node is: a scalar as it is written. -/
def key? (targets : List (Nat × Node)) (node : Node) : Following Text := fun budget => do
  match ← node.resolve? targets budget with
  | (scalar _ text _, budget) => some (text, budget)
  | _ => none

/-- The field of an entry whose value is read by `part`. -/
def field? (targets : List (Nat × Node)) (part : Node → Following Json) (entry : Node × Node) :
    Following (Text × Json) := fun budget => do
  let (name, budget) ← entry.1.key? targets budget
  let (j, budget) ← part entry.2 budget
  some ((name, j), budget)

/-- The value of a node. The nodes in it are read by `part`, without which it must be a scalar. -/
def value? (targets : List (Nat × Node)) (part : Option (Node → Following Json)) (node : Node) :
    Following Json := fun budget => do
  match ← node.resolve? targets budget, part with
  | (scalar p text isPlain, budget), _ => (scalarJson? p.tag text isPlain).map (·, budget)
  | (sequence p items, budget), some part =>
    if allowsTag p.tag then
      (Following.all part items budget).map fun (js, budget) => (.array js, budget)
    else none
  | (mapping p entries, budget), some part =>
    if allowsTag p.tag then
      (Following.all (field? targets part) entries budget).map fun (fields, budget) =>
        (.object (distinctEntries fields), budget)
    else none
  | _, _ => none

/-- The value of a node that holds at most `depth` levels of collections. -/
def toJson? (targets : List (Nat × Node)) : Nat → Node → Following Json
  | 0 => value? targets none
  | depth + 1 => value? targets (some (toJson? targets depth))

end Node

/-- Reads a YAML text that is a single document. -/
def parse? (s : Text) : Option Json := do
  let root ← Node.parse? s
  let (j, _) ← root.toJson? root.targets maxDepth root.referenceBudget
  some j

end UriTemplate.Yaml
