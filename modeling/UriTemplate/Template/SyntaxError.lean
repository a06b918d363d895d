import UriTemplate.Text

/-!
# Syntax errors

Why a text is no template, and where. The cause is a `SyntaxFault`; the place is the number of
UTF-8 bytes in front of it. One function, `SyntaxFault.message`, holds the wording.
-/

namespace UriTemplate

/-- The greatest length that a modifier may ask for. -/
def maxLengthLimit : Nat := 9999

/-- Why a text is no template. -/
inductive SyntaxFault
  /-- A closing brace outside of an expression. -/
  | unexpectedClosingBrace
  /-- The text ends inside an expression. -/
  | unterminatedExpression
  /-- An expression starts with a character kept for operators to come. -/
  | reservedOperator (symbol : Char)
  /-- A variable specification is followed by neither a comma nor a closing brace. -/
  | invalidCharacter (symbol : Char)
  /-- A variable specification without a name. -/
  | emptyName
  /-- A dot at the start of a name or behind another dot. -/
  | misplacedDot
  /-- A dot at the end of a name. -/
  | trailingDot
  /-- A percent sign in a name without two hexadecimal digits behind it. -/
  | malformedTriplet
  /-- A colon without digits. -/
  | missingDigits
  /-- A length that starts with the digit zero. -/
  | leadingZero (digits : Text)
  /-- A length beyond the limit. -/
  | lengthOutOfRange (digits : Text)
  /-- Two modifiers on one variable. -/
  | secondModifier (name : Text)
deriving DecidableEq

/-- The wording of a fault. -/
def SyntaxFault.message : SyntaxFault → Text
  | .unexpectedClosingBrace => "Unexpected closing brace".toList
  | .unterminatedExpression => "Unterminated expression, missing '\x7d'".toList
  | .reservedOperator c => "Operator '".toList ++ c :: "' is reserved".toList
  | .invalidCharacter c => "Invalid character '".toList ++ c :: "' in expression".toList
  | .emptyName => "Empty variable name".toList
  | .misplacedDot => "Unexpected '.' in variable name".toList
  | .trailingDot => "Variable name cannot end with '.'".toList
  | .malformedTriplet => "Malformed percent-encoding in variable name".toList
  | .missingDigits => "Expected digits after ':' for max-length".toList
  | .leadingZero digits =>
    "Max-length '".toList ++ digits ++ "' must start with a non-zero digit".toList
  | .lengthOutOfRange digits =>
    "Max-length '".toList ++ digits ++ "' is out of range (1-".toList ++
      numeral maxLengthLimit ++ [')']
  | .secondModifier name =>
    "Variable '".toList ++ name ++
      "' cannot have both a max-length and an explode modifier".toList

/-- A fault and the number of UTF-8 bytes in front of it. -/
structure SyntaxError where
  position : Nat
  fault : SyntaxFault
deriving DecidableEq

/-- The wording of an error with its position. -/
def SyntaxError.message (e : SyntaxError) : Text :=
  "Template syntax error at position ".toList ++ numeral e.position ++ ": ".toList ++
    e.fault.message

end UriTemplate
