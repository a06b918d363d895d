import UriTemplate.Json.Basic

/-!
# Numbers in JSON text

A number is read as a word as far as its digits fit into 64 bits. A whole number that fits is
exact. Any other number is the word rounded to 64-bit floating point and then scaled by the
rounded power of ten that the remaining digits, the fraction and the exponent ask for, with a
rounding at each step; so the last bit may differ from the number nearest to the numeral. A number
beyond the greatest finite one is refused.
-/

namespace UriTemplate

/-- The parts of a numeral. -/
structure NumberLiteral where
  negative : Bool
  whole : Text
  fraction : Option Text
  exponent : Option (Bool × Text)
deriving DecidableEq

/-- As many digits as fit into a word of 64 bits behind `word`, with what is left of them. -/
def takeWord (word : Nat) : Text → Nat × Text
  | [] => (word, [])
  | c :: digits =>
    let next := 10 * word + (c.toNat - '0'.toNat)
    if next < UInt64.size then takeWord next digits else (word, c :: digits)

/-- A non-negative number, given by its pattern, times `10 ^ exponent`; none if the power is too
great. Below the least power of ten that has an inverse, the number is first made smaller by
`10 ^ 308` until it vanishes. -/
def scaleByPower? (pattern : Nat) (exponent : Int) : Option Nat :=
  if 0 ≤ exponent ∧ exponent ≤ 308 then
    some (Format.double.mul pattern (Format.double.roundDecimal 1 exponent))
  else if -308 ≤ exponent ∧ exponent < 0 then
    some (Format.double.div pattern (Format.double.roundDecimal 1 (-exponent)))
  else if pattern = 0 then some 0
  else if h : 0 < exponent then none
  else
    scaleByPower? (Format.double.div pattern (Format.double.roundDecimal 1 308)) (exponent + 308)
termination_by (-exponent).toNat

namespace NumberLiteral

/-- The power of ten that an exponent asks for. -/
def exponentValue (n : NumberLiteral) : Int :=
  match n.exponent with
  | none => 0
  | some (negative, digits) =>
    if negative then -Int.ofNat (digitsValue digits) else Int.ofNat (digitsValue digits)

/-- The number as a scaled floating-point number, if it is finite. -/
def toReal? (n : NumberLiteral) : Option (Binary .double) := do
  let (word, dropped) := takeWord 0 n.whole
  let fraction := n.fraction.getD []
  let (significand, rest) := takeWord word fraction
  let exponent := Int.ofNat dropped.length - Int.ofNat (fraction.length - rest.length) +
    n.exponentValue
  let pattern ← scaleByPower? (Format.double.round significand 1) exponent
  if pattern < Format.double.infinity then some (.ofPattern n.negative pattern) else none

/-- The number that a numeral stands for, if it is not too great. -/
def toNumber? (n : NumberLiteral) : Option JsonNumber :=
  let (word, dropped) := takeWord 0 n.whole
  if n.fraction.isNone && n.exponent.isNone && dropped = [] then
    if !n.negative then some (.natural (UInt64.ofNat word))
    else if 0 < word ∧ (IntegerType.signed 64).Holds (-word) then
      some (.negative (Int64.ofInt (-word)))
    else n.toReal?.map .real
  else n.toReal?.map .real

end NumberLiteral

end UriTemplate
