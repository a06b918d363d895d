import UriTemplate.Json.Basic

/-!
# JSON text

`Json.compact` writes a value without blanks, and `Json.pretty` writes each item and field on a
line of its own, two spaces deeper than what it belongs to. Texts keep all characters except
quotes, backslashes and control characters.
-/

namespace UriTemplate

/-- A character as it stands in a JSON string. -/
def jsonChar (c : Char) : Text :=
  if c = '"' then ['\\', '"']
  else if c = '\\' then ['\\', '\\']
  else if c = '\n' then ['\\', 'n']
  else if c = '\t' then ['\\', 't']
  else if c = '\r' then ['\\', 'r']
  else if c.toNat = 8 then ['\\', 'b']
  else if c.toNat = 12 then ['\\', 'f']
  else if c.toNat < 32 then '\\' :: 'u' :: lowerHex 4 c.toNat
  else [c]

/-- A text as a JSON string. -/
def jsonString (s : Text) : Text := '"' :: s.flatMap jsonChar ++ ['"']

/-- A number as JSON text. -/
def JsonNumber.toText : JsonNumber → Text
  | natural n => numeral n.toNat
  | negative n => integerNumeral n.toInt
  | real x => FloatStyle.json.write x

namespace Json

mutual

/-- The value without blanks. -/
def compact : Json → Text
  | null => "null".toList
  | bool b => boolText b
  | number n => n.toText
  | string s => jsonString s
  | array items => '[' :: compactItems items ++ [']']
  | object fields => '{' :: compactFields fields ++ ['}']

/-- Items with commas between them. -/
def compactItems : List Json → Text
  | [] => []
  | [item] => item.compact
  | item :: items => item.compact ++ ',' :: compactItems items

/-- Fields with commas between them. -/
def compactFields : List (Text × Json) → Text
  | [] => []
  | [(key, item)] => jsonString key ++ ':' :: item.compact
  | (key, item) :: fields =>
    jsonString key ++ ':' :: item.compact ++ ',' :: compactFields fields

end

/-- A new line at a depth. -/
def newLine (depth : Nat) : Text := '\n' :: List.replicate (2 * depth) ' '

mutual

/-- The value, with its items and fields on lines of their own, at a depth. -/
def prettyAt (depth : Nat) : Json → Text
  | null => "null".toList
  | bool b => boolText b
  | number n => n.toText
  | string s => jsonString s
  | array [] => "[]".toList
  | array (item :: items) =>
    '[' :: newLine (depth + 1) ++ item.prettyAt (depth + 1) ++ prettyItems (depth + 1) items ++
      newLine depth ++ [']']
  | object [] => ['{', '}']
  | object ((key, item) :: fields) =>
    '{' :: newLine (depth + 1) ++ jsonString key ++ ": ".toList ++ item.prettyAt (depth + 1) ++
      prettyFields (depth + 1) fields ++ newLine depth ++ ['}']

/-- Further items, each behind a comma. -/
def prettyItems (depth : Nat) : List Json → Text
  | [] => []
  | item :: items => ',' :: newLine depth ++ item.prettyAt depth ++ prettyItems depth items

/-- Further fields, each behind a comma. -/
def prettyFields (depth : Nat) : List (Text × Json) → Text
  | [] => []
  | (key, item) :: fields =>
    ',' :: newLine depth ++ jsonString key ++ ": ".toList ++ item.prettyAt depth ++
      prettyFields depth fields

end

/-- The value with its items and fields on lines of their own. -/
def pretty (j : Json) : Text := j.prettyAt 0

end Json

end UriTemplate
