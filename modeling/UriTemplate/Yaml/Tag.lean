import UriTemplate.Yaml.Cursor

/-!
# Tags in YAML text

A tag tells of which kind a node is. It is written in full within angle brackets, or behind a
handle, which is short for the beginning of tags. Percent escapes in a tag stand for bytes in the
pattern of UTF-8, which need not be the bytes of any character. So a tag is a sequence of bytes. It
ends in front of the first zero byte.
-/

namespace UriTemplate.Yaml

/-- The bytes of a tag, or of a part of one. -/
abbrev Tag := List UInt8

namespace Tag

/-- The tag that a text writes without escapes. -/
def ofText (s : Text) : Tag := s.flatMap String.utf8EncodeChar

/-- The tag `!`, which names no kind. -/
def nonSpecific : Tag := ofText ['!']

/-- A tag of the core schema. -/
def core (name : String) : Tag := ofText ("tag:yaml.org,2002:".toList ++ name.toList)

/-- Whether a tag starts with an exclamation mark. -/
def isMarked (t : Tag) : Bool := t.head? = some 0x21

/-- Whether a tag is local to its document: an exclamation mark and any characters. -/
def isLocal (t : Tag) : Bool :=
  t.isMarked && (String.fromUTF8? (ByteArray.mk t.toArray)).isSome

/-- A character of a tag; flow indicators only within angle brackets and in directives. -/
def isTagChar (inBrackets : Bool) (c : Char) : Bool :=
  isWordChar c || c ∈ ";/?:@&=+$.%!~*'()".toList ||
    (inBrackets && (c = ',' || c = '[' || c = ']'))

/-- How many further bytes follow the first byte of a character in the pattern of UTF-8. -/
def furtherBytes? (first : Nat) : Option Nat :=
  if first < 0x80 then some 0
  else if first < 0xC0 then none
  else if first < 0xE0 then some 1
  else if first < 0xF0 then some 2
  else if first < 0xF8 then some 3
  else none

/-- The bytes that characters of a tag stand for, of which the first `further` must be the further
bytes of a character. All bytes of a character are escapes if one of them is. -/
def bytes? (further : Nat) : Text → Option Tag
  | [] => if further = 0 then some [] else none
  | '%' :: a :: b :: s => do
    let n ← hexWordValue? [a, b]
    let further ←
      if further = 0 then furtherBytes? n
      else if n / 64 = 2 then some (further - 1)
      else none
    let bytes ← bytes? further s
    some (UInt8.ofNat n :: bytes)
  | c :: s =>
    if further = 0 ∧ c ≠ '%' then (bytes? 0 s).map (String.utf8EncodeChar c ++ ·) else none

/-- Reads the characters of a tag, of which there may be none. -/
def readAny? (inBrackets : Bool) (s : Text) : Option (Tag × Text) :=
  let word := s.takeWhile (isTagChar inBrackets)
  (bytes? 0 word).map fun bytes => (bytes.takeWhile (· ≠ 0), s.drop word.length)

/-- Reads the characters of a tag, of which there must be one. -/
def readSome? (inBrackets : Bool) (s : Text) : Option (Tag × Text) :=
  if s.head?.any (isTagChar inBrackets) then readAny? inBrackets s else none

/-- Reads a tag behind its exclamation mark, as a handle and what follows it: within angle brackets,
behind a handle between two exclamation marks, or behind the handle `!`. There is no handle within
angle brackets nor in front of the tag `!`. -/
def read? (s : Text) : Option (Text × Tag × Text) :=
  match s with
  | '<' :: s => do
    let (tag, rest) ← readSome? true s
    match rest with
    | '>' :: rest => some ([], tag, rest)
    | _ => none
  | s =>
    let word := s.takeWhile isWordChar
    match s.drop word.length with
    | '!' :: s => do
      let (suffix, rest) ← readSome? false s
      some ('!' :: word ++ ['!'], suffix, rest)
    | _ => do
      let (suffix, rest) ← readAny? false s
      if suffix = [] then some ([], nonSpecific, rest) else some (['!'], suffix, rest)

/-- Reads the handle of a directive. -/
def readHandle? : Text → Option (Text × Text)
  | '!' :: s =>
    let word := s.takeWhile isWordChar
    match s.drop word.length with
    | '!' :: rest => some ('!' :: word ++ ['!'], rest)
    | rest => if word = [] then some (['!'], rest) else none
  | _ => none

/-- The beginnings of tags that handles stand for without any directive. -/
def defaultHandles : List (Text × Tag) :=
  [(['!'], ofText ['!']), (['!', '!'], core "")]

end Tag

end UriTemplate.Yaml
