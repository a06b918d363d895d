import UriTemplate.Number.Shortest

/-!
# Number notation

Decimal numerals with a point, positional or with an exponent. A `FloatStyle` collects what one
output decides about its floating-point numbers: which of them are written positionally, whether a
whole number keeps a fraction, where signs stand, and which way a tie between two shortest decimals
goes.
-/

namespace UriTemplate

/-- A word of digits with the point before its last `scale` digits, filled up with zeros so that
at least one digit stands before the point. -/
def placePoint (digits : Text) (scale : Nat) : Text :=
  if scale = 0 then digits
  else
    let padded := padZeros (scale + 1) digits
    let whole := padded.length - scale
    padded.take whole ++ '.' :: padded.drop whole

namespace Scientific

/-- The numeral without an exponent. -/
def positional (x : Scientific) : Text :=
  if 0 ≤ x.exponent then numeral x.digits ++ List.replicate x.exponent.toNat '0'
  else placePoint (numeral x.digits) (-x.exponent).toNat

/-- The power of ten of the first digit. -/
def leadExponent (x : Scientific) : Int := x.exponent + ((numeral x.digits).length - 1)

/-- The numeral with one digit before the point and an exponent, which has a plus sign if `plus` is
set and it is not negative. -/
def exponential (plus : Bool) (x : Scientific) : Text :=
  placePoint (numeral x.digits) ((numeral x.digits).length - 1) ++
    'e' :: (if plus && 0 ≤ x.leadExponent then ['+'] else []) ++ integerNumeral x.leadExponent

end Scientific

/-- What an output decides about its floating-point numbers. -/
structure FloatStyle where
  /-- Which of two equally near shortest decimals is written. -/
  tie : Tie
  /-- Whether a number with this exact value and this shortest decimal has no exponent. -/
  isPositional : Dyadic → Scientific → Bool
  /-- Whether a whole number without exponent ends in `.0`. -/
  keepsFraction : Bool
  /-- Whether a negative zero has its sign. -/
  signsZero : Bool
  /-- Whether an exponent that is not negative has a plus sign. -/
  signsExponent : Bool

namespace FloatStyle

/-- The number of a format nearest to a power of ten. -/
def bound (f : Format) (exponent : Int) : Dyadic := f.magnitude (f.roundDecimal 1 exponent)

/-- Numbers from `10 ^ -5` up to `10 ^ 15`, both rounded to 64 bits, are positional, without a
needless fraction, and zero has no sign. -/
def canonical : FloatStyle where
  tie := .upward
  isPositional := fun x _ => x.lt (bound .double 15) && !x.lt (bound .double (-5))
  keepsFraction := false
  signsZero := false
  signsExponent := false

/-- Numbers from `10 ^ -4` up to `10 ^ 16`, both rounded to the format, are positional and have a
fraction, and zero keeps its sign. -/
def diagnostic (f : Format) : FloatStyle where
  tie := .upward
  isPositional := fun x _ => x.lt (bound f 16) && !x.lt (bound f (-4))
  keepsFraction := true
  signsZero := true
  signsExponent := false

/-- Numbers whose first digit stands for a power of ten from `least` to `greatest` are positional
and have a fraction, zero keeps its sign, and other exponents have one. -/
def byLeadExponent (least greatest : Int) : FloatStyle where
  tie := .toEven
  isPositional := fun _ s => least ≤ s.leadExponent && s.leadExponent ≤ greatest
  keepsFraction := true
  signsZero := true
  signsExponent := true

/-- Numbers of 64 bits in JSON. -/
def json : FloatStyle := byLeadExponent (-5) 15

/-- Numbers of 32 bits as keys of JSON objects. -/
def jsonSingle : FloatStyle := byLeadExponent (-6) 12

/-- A numeral with the fraction that the style wants for a whole number. -/
def withFraction (style : FloatStyle) (digits : Text) : Text :=
  if style.keepsFraction && !digits.contains '.' then digits ++ ".0".toList else digits

/-- A positive number of a format. -/
def writeMagnitude (style : FloatStyle) (f : Format) (x : Dyadic) : Text :=
  let s := x.shortest f style.tie
  if style.isPositional x s then style.withFraction s.positional
  else s.exponential style.signsExponent

/-- A number of a format. -/
def write (style : FloatStyle) {f : Format} (x : Binary f) : Text :=
  match x.kind with
  | .notANumber => "NaN".toList
  | .infinite negative => (if negative then ['-'] else []) ++ "inf".toList
  | .finite negative m =>
    if m.significand = 0 then
      (if negative && style.signsZero then ['-'] else []) ++ style.withFraction ['0']
    else (if negative then ['-'] else []) ++ style.writeMagnitude f m

end FloatStyle

end UriTemplate
