import UriTemplate.Text

/-!
# Expression operators

An expression starts with at most one operator character, which decides how its variables are
written: what stands in front of the first value, what separates the values, whether values carry
their variable's name, what follows a name whose value is empty, and whether reserved characters
pass through unescaped.
-/

namespace UriTemplate

/-- The eight kinds of expansion. -/
inductive Operator
  /-- Simple expansion, written without an operator character. -/
  | simple
  /-- Reserved expansion, written with a plus sign. -/
  | reserved
  /-- Fragment expansion, written with a number sign. -/
  | fragment
  /-- Label expansion, written with a dot. -/
  | label
  /-- Path segments, written with a slash. -/
  | path
  /-- Path-style parameters, written with a semicolon. -/
  | parameter
  /-- Form-style query, written with a question mark. -/
  | query
  /-- Form-style query continuation, written with an ampersand. -/
  | continuation
deriving DecidableEq

namespace Operator

/-- The operator that a character stands for. -/
def ofChar? : Char → Option Operator
  | '+' => some .reserved
  | '#' => some .fragment
  | '.' => some .label
  | '/' => some .path
  | ';' => some .parameter
  | '?' => some .query
  | '&' => some .continuation
  | _ => none

/-- The character that stands for an operator; simple expansion has none. -/
def char? : Operator → Option Char
  | .simple => none
  | .reserved => some '+'
  | .fragment => some '#'
  | .label => some '.'
  | .path => some '/'
  | .parameter => some ';'
  | .query => some '?'
  | .continuation => some '&'

/-- An operator's character stands for that operator and no other. -/
theorem ofChar?_eq_some_iff {c : Char} {op : Operator} :
    ofChar? c = some op ↔ char? op = some c := by
  constructor
  · unfold ofChar?
    split <;> intro h <;> cases h <;> rfl
  · cases op <;> intro h <;> cases h <;> rfl

/-- The operator as it is written in an expression. -/
def toText (op : Operator) : Text := op.char?.toList

/-- What stands in front of the first value. -/
def first : Operator → Text
  | .simple | .reserved => []
  | .fragment => ['#']
  | .label => ['.']
  | .path => ['/']
  | .parameter => [';']
  | .query => ['?']
  | .continuation => ['&']

/-- The character between two values. -/
def separator : Operator → Char
  | .simple | .reserved | .fragment => ','
  | .label => '.'
  | .path => '/'
  | .parameter => ';'
  | .query | .continuation => '&'

/-- Whether values are written behind their variable's name. -/
def isNamed : Operator → Bool
  | .parameter | .query | .continuation => true
  | _ => false

/-- What follows a name whose value is empty. -/
def ifEmpty : Operator → Text
  | .query | .continuation => ['=']
  | _ => []

/-- Whether reserved characters and percent triplets of a value are kept. -/
def allowsReserved : Operator → Bool
  | .reserved | .fragment => true
  | _ => false

/-- Characters that may not start an expression because they are kept for operators to come. -/
def isKeptForLater (c : Char) : Bool := c = '=' || c = ',' || c = '!' || c = '@' || c = '|'

/-- The operator's name in a rendered template. -/
def tag : Operator → Text
  | .simple => "none".toList
  | .reserved => "plus".toList
  | .fragment => "hash".toList
  | .label => "dot".toList
  | .path => "slash".toList
  | .parameter => "semicolon".toList
  | .query => "question".toList
  | .continuation => "ampersand".toList

end Operator

end UriTemplate
