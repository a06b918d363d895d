import UriTemplate.Text

/-!
# Percent encoding

`Percent.encode` writes a text with characters that a URI allows: a space becomes a plus sign, an
unreserved character or one of the marks `!*()` stays, and any other character becomes one percent
triplet for each byte of its UTF-8 form. In reserved mode the reserved characters of RFC 3986 stay
too, and so does the percent sign of a complete triplet. `Percent.truncate` keeps the first units
of a text, where in reserved mode a complete triplet is one unit.
-/

namespace UriTemplate.Percent

/-- The unreserved characters of RFC 3986. -/
def isUnreserved (c : Char) : Bool := c.isAlphanum || c = '-' || c = '.' || c = '_' || c = '~'

/-- The marks that form encoding leaves alone besides the unreserved characters. -/
def isFormMark (c : Char) : Bool := c = '!' || c = '*' || c = '(' || c = ')'

/-- The delimiters of RFC 3986. -/
def isReserved (c : Char) : Bool := c ∈ ":/?#[]@!$&'()*+,;=".toList

/-- Whether a percent sign with two hexadecimal digits stands here. -/
def startsTriplet : Text → Bool
  | '%' :: a :: b :: _ => isHexDigit a && isHexDigit b
  | _ => false

/-- The percent triplet of a byte, in upper case. -/
def triplet (byte : UInt8) : Text := ['%', hexDigit (byte.toNat / 16), hexDigit (byte.toNat % 16)]

/-- A character as the triplets of its bytes. -/
def escape (c : Char) : Text := (String.utf8EncodeChar c).flatMap triplet

/-- What is written for the character `c` in front of `rest`. -/
def encodeHead (reserved : Bool) (c : Char) (rest : Text) : Text :=
  if c = ' ' then ['+']
  else if isUnreserved c || isFormMark c then [c]
  else if reserved && (isReserved c || startsTriplet (c :: rest)) then [c]
  else escape c

/-- The percent encoding of a text. -/
def encode (reserved : Bool) : Text → Text
  | [] => []
  | c :: rest => encodeHead reserved c rest ++ encode reserved rest

/-- The first `count` units of a text. -/
def truncate (reserved : Bool) : Nat → Text → Text
  | 0, _ => []
  | _, [] => []
  | count + 1, c :: rest =>
    if reserved && startsTriplet (c :: rest) then
      c :: rest.take 2 ++ truncate reserved count (rest.drop 2)
    else c :: truncate reserved count rest

end UriTemplate.Percent
