import UriTemplate.Number.Power
import UriTemplate.Text

/-!
# Binary floating-point numbers

A number of a binary interchange format is its bit pattern: a sign, a biased exponent and a
fraction (IEEE 754). `Binary.kind` says what a pattern stands for, with a finite number as
significand times a power of two, and `Format.round` gives the pattern of the number nearest to a
quotient of natural numbers, ties to even. All arithmetic is exact, on natural numbers and
integers.
-/

namespace UriTemplate

/-- A binary interchange format. -/
structure Format where
  /-- The number of bits of a significand, the leading one included. -/
  precision : Nat
  /-- The number of bits of the exponent field. -/
  exponentBits : Nat
deriving DecidableEq

namespace Format

/-- The format of 64 bits. -/
def double : Format := ⟨53, 11⟩

/-- The format of 32 bits. -/
def single : Format := ⟨24, 8⟩

/-- The number of bits of a pattern: the sign, the exponent and the fraction. -/
def width (f : Format) : Nat := f.precision + f.exponentBits

/-- The weight of the lowest bit of a pattern with the least exponent, as a power of two. -/
def minExponent (f : Format) : Int := 3 - twoPow (f.exponentBits - 1) - f.precision

/-- The pattern of infinity, without its sign. -/
def infinity (f : Format) : Nat := (twoPow f.exponentBits - 1) * twoPow (f.precision - 1)

end Format

/-- A number `significand · 2 ^ exponent`. -/
structure Dyadic where
  significand : Nat
  exponent : Int
deriving DecidableEq

namespace Dyadic

/-- The numerator and the denominator of the number. -/
def ratio (x : Dyadic) : Nat × Nat :=
  (x.significand * twoPow x.exponent.toNat, twoPow (-x.exponent).toNat)

/-- Whether one number is below another, decided exactly. -/
def lt (x y : Dyadic) : Bool := x.ratio.1 * y.ratio.2 < y.ratio.1 * x.ratio.2

end Dyadic

namespace Format

/-- The exponent with which a quotient of about `2 ^ log` is rounded: the one that leaves
`precision` bits, but none below the least. -/
def roundingExponent (f : Format) (num den : Nat) : Int :=
  let log : Int := Int.ofNat (Nat.log2 num) - Int.ofNat (Nat.log2 den)
  let e := max (log - f.precision) f.minExponent
  if num * twoPow (-e).toNat < twoPow f.precision * (den * twoPow e.toNat) then e else e + 1

/-- The integer nearest to `num / den`; a half goes to the even neighbour. -/
def nearestEven (num den : Nat) : Nat :=
  let quotient := num / den
  let excess := 2 * (num % den)
  if excess < den || (excess = den && quotient % 2 = 0) then quotient else quotient + 1

/-- The pattern of the non-negative number nearest to `num / den`, which is infinity beyond the
greatest number. The significand is added to the exponent field, so that its leading one counts as
one step of the exponent. -/
def round (f : Format) (num den : Nat) : Nat :=
  if num = 0 then 0
  else
    let e := f.roundingExponent num den
    let significand := nearestEven (num * twoPow (-e).toNat) (den * twoPow e.toNat)
    min ((e - f.minExponent).toNat * twoPow (f.precision - 1) + significand) f.infinity

/-- What a pattern without sign stands for, unless it is infinity or no number. -/
def magnitude (f : Format) (pattern : Nat) : Dyadic :=
  let field := pattern / twoPow (f.precision - 1)
  let fraction := pattern % twoPow (f.precision - 1)
  if field = 0 then ⟨fraction, f.minExponent⟩
  else ⟨twoPow (f.precision - 1) + fraction, f.minExponent + (field - 1)⟩

/-- The pattern nearest to the product of two numbers without sign. -/
def mul (f : Format) (p q : Nat) : Nat :=
  let a := (f.magnitude p).ratio
  let b := (f.magnitude q).ratio
  f.round (a.1 * b.1) (a.2 * b.2)

/-- The pattern nearest to the quotient of two numbers without sign. -/
def div (f : Format) (p q : Nat) : Nat :=
  let a := (f.magnitude p).ratio
  let b := (f.magnitude q).ratio
  f.round (a.1 * b.2) (a.2 * b.1)

/-- The pattern nearest to `digits · 10 ^ exponent`. -/
def roundDecimal (f : Format) (digits : Nat) (exponent : Int) : Nat :=
  f.round (digits * tenPow exponent.toNat) (tenPow (-exponent).toNat)

end Format

/-- A number of a binary format, given by its bit pattern. -/
structure Binary (f : Format) where
  bits : BitVec f.width
deriving DecidableEq

namespace Binary

/-- What a bit pattern stands for. -/
inductive Kind
  | notANumber
  | infinite (negative : Bool)
  | finite (negative : Bool) (magnitude : Dyadic)
deriving DecidableEq

variable {f : Format}

/-- Whether the sign bit is set. -/
def isNegative (x : Binary f) : Bool := twoPow (f.width - 1) ≤ x.bits.toNat

/-- The pattern without its sign. -/
def pattern (x : Binary f) : Nat := x.bits.toNat % twoPow (f.width - 1)

/-- What the number stands for. -/
def kind (x : Binary f) : Kind :=
  if x.pattern < f.infinity then .finite x.isNegative (f.magnitude x.pattern)
  else if x.pattern = f.infinity then .infinite x.isNegative
  else .notANumber

/-- Whether the number is neither infinite nor no number. -/
def isFinite (x : Binary f) : Bool := x.pattern < f.infinity

/-- The number with a sign and a pattern without sign. -/
def ofPattern (negative : Bool) (pattern : Nat) : Binary f :=
  ⟨BitVec.ofNat f.width (pattern + if negative then twoPow (f.width - 1) else 0)⟩

/-- A number in another format: a finite one is rounded, an infinite one stays infinite, and no
number stays none. -/
def convert (g : Format) (x : Binary f) : Binary g :=
  match x.kind with
  | .notANumber => .ofPattern false (g.infinity + 1)
  | .infinite negative => .ofPattern negative g.infinity
  | .finite negative m => .ofPattern negative (g.round m.ratio.1 m.ratio.2)

end Binary

end UriTemplate
