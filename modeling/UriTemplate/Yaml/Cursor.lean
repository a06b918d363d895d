import UriTemplate.Text

/-!
# Places in YAML text

A `Cursor` is what is left of a YAML text, with the line and the column where it starts, since
indentation carries meaning. Characters are blanks, line breaks or neither. A `Gap` is a stretch of
blanks and line breaks inside of a scalar, which is folded: a single line break becomes a space,
and of several the first one is dropped.
-/

namespace UriTemplate.Yaml

/-- A place in a text: the number of UTF-8 bytes, of lines, and of characters of its own line in
front of it. -/
structure Mark where
  offset : Nat
  line : Nat
  column : Nat
deriving DecidableEq

namespace Mark

/-- The start of a text. -/
def start : Mark := ⟨0, 0, 0⟩

/-- The place behind a text that stands here, all on the same line. -/
def behind (m : Mark) (s : Text) : Mark :=
  { m with offset := m.offset + Text.utf8Length s, column := m.column + s.length }

/-- The start of the next line, behind a line break that stands here. -/
def newLine (m : Mark) (lineBreak : Text) : Mark :=
  ⟨m.offset + Text.utf8Length lineBreak, m.line + 1, 0⟩

end Mark

/-- What is left of a text, and where it starts. -/
structure Cursor where
  mark : Mark
  rest : Text

/-- The cursor behind `count` characters of the same line. -/
def Cursor.skip (c : Cursor) (count : Nat) : Cursor :=
  ⟨c.mark.behind (c.rest.take count), c.rest.drop count⟩

/-- The column of a cursor. -/
def Cursor.column (c : Cursor) : Nat := c.mark.column

/-- A space or a tab. -/
def isBlank (c : Char) : Bool := c = ' ' || c = '\t'

/-- A line break: line feed, carriage return, next line, line separator, paragraph separator. -/
def isBreak (c : Char) : Bool :=
  c = '\n' || c = '\r' || c.toNat = 0x85 || c.toNat = 0x2028 || c.toNat = 0x2029

/-- What a line break stands for in a scalar: the two separators stand for themselves, all others
for a line feed. -/
def breakText (c : Char) : Text := if c.toNat = 0x2028 ∨ c.toNat = 0x2029 then [c] else ['\n']

/-- Whether a blank, a line break or the end of the text comes first. -/
def atSpace : Text → Bool
  | [] => true
  | c :: _ => isBlank c || isBreak c

/-- Whether a line break or the end of the text comes first. -/
def atBreak : Text → Bool
  | [] => true
  | c :: _ => isBreak c

/-- Letters, digits, the underscore and the hyphen. -/
def isWordChar (c : Char) : Bool := c.isAlphanum || c = '_' || c = '-'

/-- A character that may stand in a YAML text. -/
def isAllowed (c : Char) : Bool :=
  let n := c.toNat
  n = 9 || n = 10 || n = 13 || (0x20 ≤ n && n ≤ 0x7E) || n = 0x85 || (0xA0 ≤ n && n ≤ 0xD7FF) ||
    (0xE000 ≤ n && n ≤ 0xFFFD) || 0x10000 ≤ n

/-- Whether a line that starts here is one of the two document markers. -/
def startsMarker (marker : Char) : Text → Bool
  | a :: b :: c :: s => a = marker && b = marker && c = marker && atSpace s
  | _ => false

/-- Whether a document marker stands at the start of a line here. -/
def Cursor.atDocumentMarker (c : Cursor) : Bool :=
  c.column = 0 && (startsMarker '-' c.rest || startsMarker '.' c.rest)

/-- The cursor behind the line break that comes first, and what the break stands for; nothing is
skipped without a line break. -/
def Cursor.skipBreak (c : Cursor) : Text × Cursor :=
  match c.rest with
  | '\r' :: '\n' :: s => (['\n'], ⟨c.mark.newLine ['\r', '\n'], s⟩)
  | x :: s => if isBreak x then (breakText x, ⟨c.mark.newLine [x], s⟩) else ([], c)
  | [] => ([], c)

/-- The cursor behind the characters that come first and meet `p`, which no line break does. -/
def Cursor.skipWhile (p : Char → Bool) (c : Cursor) : Cursor := c.skip (c.rest.takeWhile p).length

/-- Blanks and line breaks between two parts of a scalar. -/
structure Gap where
  /-- The blanks in front of the first line break. -/
  blanks : Text
  /-- What the line breaks stand for. -/
  breaks : List Text

namespace Gap

/-- No gap. -/
def empty : Gap := ⟨[], []⟩

/-- Whether the gap spans a line break. -/
def isBroken (g : Gap) : Bool := !g.breaks.isEmpty

/-- What the gap stands for. -/
def folded (g : Gap) : Text :=
  match g.breaks with
  | [] => g.blanks
  | first :: others =>
    if first = ['\n'] then (if others.flatten = [] then [' '] else others.flatten)
    else first ++ others.flatten

/-- The gap with one more blank, which counts only before the first line break. -/
def addBlank (g : Gap) (c : Char) : Gap :=
  if g.isBroken then g else { g with blanks := g.blanks ++ [c] }

/-- The gap with one more line break. -/
def addBreak (g : Gap) (text : Text) : Gap := { g with breaks := g.breaks ++ [text] }

end Gap

/-- Reads blanks and line breaks. Behind a line break no tab may stand left of `column`. -/
def readGap? (column : Nat) (gap : Gap) (mark : Mark) : Text → Option (Gap × Cursor)
  | '\r' :: '\n' :: s => readGap? column (gap.addBreak ['\n']) (mark.newLine ['\r', '\n']) s
  | c :: s =>
    if isBreak c then readGap? column (gap.addBreak (breakText c)) (mark.newLine [c]) s
    else if isBlank c then
      if gap.isBroken && c = '\t' && mark.column < column then none
      else readGap? column (gap.addBlank c) (mark.behind [c]) s
    else some (gap, ⟨mark, c :: s⟩)
  | [] => some (gap, ⟨mark, []⟩)

end UriTemplate.Yaml
