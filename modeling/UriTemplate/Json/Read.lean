import UriTemplate.Json.Token

/-!
# Reading JSON

A text is read token by token, with a stack of the arrays and objects that are still open. At most
127 of them may be open at once. Of a repeated key the first place and the last value are kept.
-/

namespace UriTemplate

/-- An array or object that is still open, with what it holds so far, the latest first. -/
inductive OpenJson
  | array (items : List Json)
  | object (fields : List (Text × Json))
  /-- An object whose last field waits for its value. -/
  | field (fields : List (Text × Json)) (key : Text)

/-- What has been read of a JSON text. -/
inductive JsonProgress
  /-- A value must follow. -/
  | value (stack : List OpenJson)
  /-- The first item of the innermost array may follow, or its end. -/
  | firstItem (stack : List OpenJson)
  /-- The first key of the innermost object may follow, or its end. -/
  | firstKey (stack : List OpenJson)
  /-- A key must follow. -/
  | key (stack : List OpenJson)
  /-- A colon must follow. -/
  | colon (stack : List OpenJson)
  /-- A comma or the end of what is innermost must follow. -/
  | next (stack : List OpenJson)
  /-- The value is complete. -/
  | complete (value : Json)

namespace JsonProgress

/-- How many arrays and objects may be open at once. -/
def maxDepth : Nat := 127

/-- A value has been read inside of what is open. -/
def deliver (j : Json) : List OpenJson → Option JsonProgress
  | [] => some (complete j)
  | .array items :: stack => some (next (.array (j :: items) :: stack))
  | .field fields k :: stack => some (next (.object ((k, j) :: fields) :: stack))
  | .object _ :: _ => none

/-- Opens an array or an object. -/
def opened (stack : List OpenJson) (inner : OpenJson) (progress : List OpenJson → JsonProgress) :
    Option JsonProgress :=
  if stack.length < maxDepth then some (progress (inner :: stack)) else none

/-- Reads a token where a value may start. -/
def startValue (stack : List OpenJson) : JsonToken → Option JsonProgress
  | .null => deliver .null stack
  | .bool b => deliver (.bool b) stack
  | .number n => deliver (.number n) stack
  | .string s => deliver (.string s) stack
  | .openArray => opened stack (.array []) firstItem
  | .openObject => opened stack (.object []) firstKey
  | _ => none

/-- The innermost array or object ends. -/
def close : JsonToken → List OpenJson → Option JsonProgress
  | .closeArray, .array items :: stack => deliver (.array items.reverse) stack
  | .closeObject, .object fields :: stack =>
    deliver (.object (distinctEntries fields.reverse)) stack
  | _, _ => none

/-- Reads a key. -/
def startField (token : JsonToken) : List OpenJson → Option JsonProgress
  | .object fields :: stack =>
    match token with
    | .string k => some (colon (.field fields k :: stack))
    | _ => none
  | _ => none

/-- Reads one token. -/
def step (progress : JsonProgress) (token : JsonToken) : Option JsonProgress :=
  match progress with
  | value stack => startValue stack token
  | firstItem stack => if token = .closeArray then close token stack else startValue stack token
  | firstKey stack => if token = .closeObject then close token stack else startField token stack
  | key stack => startField token stack
  | colon stack => if token = .colon then some (value stack) else none
  | next stack =>
    match token, stack with
    | .comma, .array _ :: _ => some (value stack)
    | .comma, .object _ :: _ => some (key stack)
    | token, stack => close token stack
  | complete _ => none

/-- The value, if it is complete. -/
def result? : JsonProgress → Option Json
  | complete j => some j
  | _ => none

end JsonProgress

/-- The value of a sequence of tokens. -/
def Json.ofTokens? (tokens : List JsonToken) : Option Json :=
  (tokens.foldlM JsonProgress.step (.value [])).bind JsonProgress.result?

/-- Reads a JSON text. -/
def Json.parse? (s : Text) : Option Json := (JsonToken.tokens? s).bind Json.ofTokens?

end UriTemplate
