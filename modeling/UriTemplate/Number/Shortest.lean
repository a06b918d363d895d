import UriTemplate.Number.Binary

/-!
# Shortest decimals

The decimal numbers that are rounded to a given binary number fill an interval around it. The
shortest of them is found on the grids of multiples of `10 ^ k`: from coarse grids to finer ones,
the first grid that has a point in the interval gives the answer. On each grid only the two
neighbours of the number have to be tried, since the interval is convex and holds the number. Of
two neighbours in the interval the nearer one is taken; which one a tie goes to is a parameter.
The search ends at a grid that holds the number itself.
-/

namespace UriTemplate

/-- A number `digits · 10 ^ exponent`. -/
structure Scientific where
  digits : Nat
  exponent : Int
deriving DecidableEq

/-- Which of two equally near neighbours is taken. -/
inductive Tie
  | upward
  | toEven
deriving DecidableEq

/-- The numbers between `low` and `high`, around `value`, in units of `2 ^ exponent`. -/
structure RoundingInterval where
  low : Nat
  value : Nat
  high : Nat
  exponent : Int
  /-- Whether the two ends belong to the interval. -/
  closed : Bool

namespace RoundingInterval

/-- The numbers that are rounded to a positive number of a format, in quarters of the weight of
its lowest bit. Below a power of two the numbers lie twice as close, except at the least
exponent. An end is a tie, which goes to the even significand. -/
def around (f : Format) (x : Dyadic) : RoundingInterval where
  low := 4 * x.significand -
    if x.significand = twoPow (f.precision - 1) ∧ f.minExponent < x.exponent then 1 else 2
  value := 4 * x.significand
  high := 4 * x.significand + 2
  exponent := x.exponent - 2
  closed := x.significand % 2 = 0

variable (i : RoundingInterval)

/-- The factors `a` and `b` for which `n` units are `n * a / b` steps of `10 ^ k`. -/
def scale (k : Int) : Nat × Nat :=
  (twoPow i.exponent.toNat * tenPow (-k).toNat, twoPow (-i.exponent).toNat * tenPow k.toNat)

/-- Whether `digits · 10 ^ k` lies in the interval. -/
def contains (k : Int) (digits : Nat) : Bool :=
  let (a, b) := i.scale k
  if i.closed then i.low * a ≤ digits * b && digits * b ≤ i.high * a
  else i.low * a < digits * b && digits * b < i.high * a

/-- The point of the grid of `10 ^ k` that lies in the interval, the one nearer to the number if
there are two neighbours of it. -/
def gridPoint? (tie : Tie) (k : Int) : Option Nat :=
  let (a, b) := i.scale k
  let below := i.value * a / b
  let above := below + 1
  match i.contains k below, i.contains k above with
  | false, false => none
  | true, false => some below
  | false, true => some above
  | true, true =>
    let excess := 2 * (i.value * a % b)
    if excess < b then some below
    else if b < excess then some above
    else match tie with
      | .upward => some above
      | .toEven => some (if below % 2 = 0 then below else above)

/-- Tries the grid of `10 ^ k` and then finer ones. -/
def search (tie : Tie) : Nat → Int → Scientific
  | 0, k => ⟨i.value * (i.scale k).1 / (i.scale k).2, k⟩
  | fuel + 1, k =>
    match i.gridPoint? tie k with
    | some digits => ⟨digits, k⟩
    | none => search tie fuel (k - 1)

/-- A grid so coarse that the whole interval lies below its first point. -/
def coarsest : Int :=
  (numeral (i.high * twoPow i.exponent.toNat / twoPow (-i.exponent).toNat + 1)).length

/-- A grid so fine that it holds the number. -/
def finest : Int := min i.exponent 0

/-- The shortest decimal in the interval. -/
def shortest (tie : Tie) : Scientific := i.search tie (i.coarsest - i.finest).toNat i.coarsest

end RoundingInterval

/-- The shortest decimal that is rounded to a positive number of a format. -/
def Dyadic.shortest (f : Format) (tie : Tie) (x : Dyadic) : Scientific :=
  (RoundingInterval.around f x).shortest tie

end UriTemplate
