import UriTemplate.Json.Number

/-!
# Tokens of JSON text

A JSON text is cut into tokens: brackets, commas, colons, the three words, numbers and strings,
with blanks between them dropped. A text that holds anything else has no tokens.
-/

namespace UriTemplate

/-- A token of a JSON text. -/
inductive JsonToken
  | openArray
  | closeArray
  | openObject
  | closeObject
  | comma
  | colon
  | null
  | bool (value : Bool)
  | number (value : JsonNumber)
  | string (text : Text)
deriving DecidableEq

namespace JsonToken

/-- The blanks between tokens. -/
def isBlank (c : Char) : Bool := c = ' ' || c = '\t' || c = '\n' || c = '\r'

/-- The character that a single-letter escape stands for. -/
def escaped? : Char → Option Char
  | '"' => some '"'
  | '\\' => some '\\'
  | '/' => some '/'
  | 'b' => some (Char.ofNat 8)
  | 'f' => some (Char.ofNat 12)
  | 'n' => some '\n'
  | 'r' => some '\r'
  | 't' => some '\t'
  | _ => none

/-- Whether a number is the first half of a pair of surrogates. -/
def isHighSurrogate (n : Nat) : Bool := 0xD800 ≤ n && n < 0xDC00

/-- Whether a number is the second half of a pair of surrogates. -/
def isLowSurrogate (n : Nat) : Bool := 0xDC00 ≤ n && n < 0xE000

/-- Reads the rest of a string, through its closing quote. -/
def readString : Text → Option (Text × Text)
  | [] => none
  | '"' :: s => some ([], s)
  | '\\' :: 'u' :: a :: b :: c :: d :: s =>
    (hexWordValue? [a, b, c, d]).bind fun high =>
      if isHighSurrogate high then
        match s with
        | '\\' :: 'u' :: e :: f :: g :: h :: s =>
          (hexWordValue? [e, f, g, h]).bind fun low =>
            if isLowSurrogate low then
              (readString s).map fun (text, rest) =>
                (Char.ofNat (0x10000 + (high - 0xD800) * 0x400 + (low - 0xDC00)) :: text, rest)
            else none
        | _ => none
      else if isLowSurrogate high then none
      else (readString s).map fun (text, rest) => (Char.ofNat high :: text, rest)
  | '\\' :: c :: s =>
    (escaped? c).bind fun x => (readString s).map fun (text, rest) => (x :: text, rest)
  | c :: s =>
    if c.toNat < 32 ∨ c = '\\' then none
    else (readString s).map fun (text, rest) => (c :: text, rest)

/-- Reads digits, of which there must be one. -/
def readDigits? (s : Text) : Option (Text × Text) :=
  let digits := s.takeWhile Char.isDigit
  if digits = [] then none else some (digits, s.dropWhile Char.isDigit)

/-- Reads the digits before the point: a zero, or digits that do not start with zero. -/
def readWhole? : Text → Option (Text × Text)
  | '0' :: s => some (['0'], s)
  | s => readDigits? s

/-- Reads a point and the digits behind it, if there is a point. -/
def readFraction? : Text → Option (Option Text × Text)
  | '.' :: s => (readDigits? s).map fun (digits, rest) => (some digits, rest)
  | s => some (none, s)

/-- Reads the sign of an exponent, whether it is negative. -/
def readSign : Text → Bool × Text
  | '-' :: s => (true, s)
  | '+' :: s => (false, s)
  | s => (false, s)

/-- Reads an exponent, if there is one. -/
def readExponent? : Text → Option (Option (Bool × Text) × Text)
  | [] => some (none, [])
  | c :: s =>
    if c = 'e' ∨ c = 'E' then
      let (negative, s) := readSign s
      (readDigits? s).map fun (digits, rest) => (some (negative, digits), rest)
    else some (none, c :: s)

/-- Reads a numeral behind its sign. -/
def readLiteral? (negative : Bool) (s : Text) : Option (NumberLiteral × Text) := do
  let (whole, s) ← readWhole? s
  let (fraction, s) ← readFraction? s
  let (exponent, s) ← readExponent? s
  some (⟨negative, whole, fraction, exponent⟩, s)

/-- Reads a number behind its sign. -/
def readNumber? (negative : Bool) (s : Text) : Option (JsonToken × Text) := do
  let (literal, rest) ← readLiteral? negative s
  let value ← literal.toNumber?
  some (number value, rest)

/-- Reads the token that starts with the character `c`, which is no blank. -/
def read? (c : Char) (s : Text) : Option (JsonToken × Text) :=
  match c, s with
  | '[', s => some (openArray, s)
  | ']', s => some (closeArray, s)
  | '{', s => some (openObject, s)
  | '}', s => some (closeObject, s)
  | ',', s => some (comma, s)
  | ':', s => some (colon, s)
  | '"', s => (readString s).map fun (text, rest) => (string text, rest)
  | 'n', 'u' :: 'l' :: 'l' :: s => some (null, s)
  | 't', 'r' :: 'u' :: 'e' :: s => some (bool true, s)
  | 'f', 'a' :: 'l' :: 's' :: 'e' :: s => some (bool false, s)
  | '-', s => readNumber? true s
  | c, s => if c.isDigit then readNumber? false (c :: s) else none

/-- The tokens of a text; each is at least one character long, so there are no more of them than
characters. -/
def tokens? (s : Text) : Option (List JsonToken) := go s.length s
where
  /-- The tokens of a text of at most `fuel` characters. -/
  go : Nat → Text → Option (List JsonToken)
  | _, [] => some []
  | 0, _ :: _ => none
  | fuel + 1, c :: s =>
    if isBlank c then go fuel s
    else (read? c s).bind fun (token, rest) => (go fuel rest).map (token :: ·)

end JsonToken

end UriTemplate
