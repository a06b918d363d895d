import UriTemplate.Number.Decimal
import UriTemplate.Calendar
import UriTemplate.Uuid

/-!
# Scalars

A scalar is a simple value with one canonical text. `Scalar.canonical` writes it, `Scalar.family`
says which scalars may stand together in a list, and `Scalar.diagnostic` shows a scalar with its
kind for a reader of logs.
-/

namespace UriTemplate

/-- A simple value. -/
inductive Scalar
  | string (text : Text)
  | bool (value : Bool)
  | int (value : Int64)
  | uint (value : UInt64)
  | float (value : Binary .double)
  | float32 (value : Binary .single)
  | decimal (value : Decimal)
  | uuid (value : Uuid)
  | dateTime (value : DateTime)
  | offsetDateTime (value : OffsetDateTime)
deriving DecidableEq

/-- Kinds of scalars that may not be mixed in a list. -/
inductive Family
  | text
  | boolean
  | number
  | uuid
  | dateTime
deriving DecidableEq

/-- The name of a family in a message. -/
def Family.name : Family → Text
  | .text => "Text".toList
  | .boolean => "Boolean".toList
  | .number => "Number".toList
  | .uuid => "Uuid".toList
  | .dateTime => "DateTime".toList

/-- The words for truth values. -/
def boolText (b : Bool) : Text := if b then "true".toList else "false".toList

/-- A character as it stands between double quotes: the quote, the backslash and control
characters are escaped. -/
def quotedChar (c : Char) : Text :=
  if c = '"' then ['\\', '"']
  else if c = '\\' then ['\\', '\\']
  else if c = '\n' then ['\\', 'n']
  else if c = '\t' then ['\\', 't']
  else if c = '\r' then ['\\', 'r']
  else if c.toNat = 0 then ['\\', '0']
  else if c.toNat < 32 ∨ c.toNat = 127 then
    '\\' :: 'u' :: '{' :: Nat.toDigits 16 c.toNat ++ ['}']
  else [c]

/-- A text between double quotes. -/
def quoted (s : Text) : Text := '"' :: s.flatMap quotedChar ++ ['"']

namespace Scalar

/-- The family of a scalar. -/
def family : Scalar → Family
  | string _ => .text
  | bool _ => .boolean
  | int _ | uint _ | float _ | float32 _ | decimal _ => .number
  | uuid _ => .uuid
  | dateTime _ | offsetDateTime _ => .dateTime

/-- The text of a scalar, the same wherever the scalar came from. -/
def canonical : Scalar → Text
  | string s => s
  | bool b => boolText b
  | int n => integerNumeral n.toInt
  | uint n => numeral n.toNat
  | float x => FloatStyle.canonical.write x
  | float32 x => FloatStyle.canonical.write x
  | decimal d => d.normalize.toText
  | uuid u => u.toText
  | dateTime d => d.canonical
  | offsetDateTime d => d.canonical

/-- The name of a scalar's kind. -/
def kindName : Scalar → Text
  | string _ => "String".toList
  | bool _ => "Bool".toList
  | int _ => "Int".toList
  | uint _ => "UInt".toList
  | float _ => "Float".toList
  | float32 _ => "Float32".toList
  | decimal _ => "Decimal".toList
  | uuid _ => "Uuid".toList
  | dateTime _ => "DateTime".toList
  | offsetDateTime _ => "DateTimeOffset".toList

/-- A scalar's content as a reader of logs sees it: texts in quotes, floating-point numbers with a
fraction, decimals with all their digits. -/
def diagnosticContent : Scalar → Text
  | string s => quoted s
  | float x => (FloatStyle.diagnostic .double).write x
  | float32 x => (FloatStyle.diagnostic .single).write x
  | decimal d => d.toText
  | dateTime d => d.diagnostic
  | offsetDateTime d => d.diagnostic
  | s => s.canonical

/-- A scalar with its kind. -/
def diagnostic (s : Scalar) : Text := s.kindName ++ '(' :: s.diagnosticContent ++ [')']

end Scalar

end UriTemplate
