import UriTemplate.Text

/-!
# Universally unique identifiers

An identifier is a word of 128 bits, written as 32 lower-case hexadecimal digits in five groups.
-/

namespace UriTemplate

/-- A universally unique identifier. -/
structure Uuid where
  bits : BitVec 128
deriving DecidableEq

/-- The identifier in groups of 8, 4, 4, 4 and 12 digits. -/
def Uuid.toText (u : Uuid) : Text :=
  let n := u.bits.toNat
  lowerHex 8 (n >>> 96) ++ '-' :: lowerHex 4 (n >>> 80) ++ '-' :: lowerHex 4 (n >>> 64) ++
    '-' :: lowerHex 4 (n >>> 48) ++ '-' :: lowerHex 12 n

end UriTemplate
