/-!
# Powers of two and ten

The powers that number formats are made of, as natural numbers.
-/

namespace UriTemplate

/-- The power of two with an exponent. -/
def twoPow (exponent : Nat) : Nat := Nat.pow 2 exponent

/-- The power of ten with an exponent. -/
def tenPow (exponent : Nat) : Nat := Nat.pow 10 exponent

end UriTemplate
