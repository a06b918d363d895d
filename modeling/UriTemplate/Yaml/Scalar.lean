import UriTemplate.Yaml.Cursor

/-!
# Scalars in YAML text

Readers for the three ways to write a scalar: plain, in quotes, and as a block of lines. Each
answers with the text of the scalar and the cursor behind it, or with nothing if the scalar is
malformed.
-/

namespace UriTemplate.Yaml

/-- The brackets and the comma of flow collections. -/
def isFlowIndicator (c : Char) : Bool := c = ',' || c = '[' || c = ']' || c = '{' || c = '}'

/-- Whether a plain scalar ends in front of the character `c` and `rest`: at a colon before a
space, and within flow collections at their indicators. -/
def endsPlain (inFlow : Bool) (c : Char) (rest : Text) : Bool :=
  (c = ':' && atSpace rest) || (inFlow && isFlowIndicator c)

/-- Whether a colon stands here right in front of an indicator, which no plain scalar of a flow
collection may hold. -/
def isMisplacedColon (inFlow : Bool) (c : Char) (rest : Text) : Bool :=
  inFlow && c = ':' && match rest with
    | d :: _ => isFlowIndicator d || d = '?'
    | [] => false

/-- Reads the characters of a plain scalar up to the next space. -/
def readPlainRun? (inFlow : Bool) : Text → Option Text
  | [] => some []
  | c :: s =>
    if isBlank c || isBreak c then some []
    else if isMisplacedColon inFlow c s then none
    else if endsPlain inFlow c s then some []
    else (readPlainRun? inFlow s).map (c :: ·)

/-- Reads runs of a plain scalar and the gaps between them, from a place behind `gap`. The answer
tells also whether the scalar is followed by a line break. The first argument bounds the number of
runs. -/
def readPlainRuns? (inFlow : Bool) (indent : Nat) :
    Nat → Text → Gap → Cursor → Option (Text × Bool × Cursor)
  | 0, _, _, _ => none
  | fuel + 1, text, gap, cursor =>
    if cursor.atDocumentMarker || cursor.rest.head? = some '#' then
      some (text, gap.isBroken, cursor)
    else do
      let run ← readPlainRun? inFlow cursor.rest
      let text := if run = [] then text else text ++ gap.folded ++ run
      let gap := if run = [] then gap else Gap.empty
      let cursor := cursor.skip run.length
      if cursor.rest = [] || !atSpace cursor.rest then some (text, gap.isBroken, cursor)
      else
        let (gap, cursor) ← readGap? indent gap cursor.mark cursor.rest
        if !inFlow && cursor.column < indent then some (text, gap.isBroken, cursor)
        else readPlainRuns? inFlow indent fuel text gap cursor

/-- Reads a plain scalar inside of a collection that is indented by `indent - 1`. -/
def readPlain? (inFlow : Bool) (indent : Nat) (cursor : Cursor) : Option (Text × Bool × Cursor) :=
  readPlainRuns? inFlow indent (cursor.rest.length + 1) [] Gap.empty cursor

/-- The character that an escape letter stands for. -/
def escapeLetter? : Char → Option Char
  | '0' => some (Char.ofNat 0)
  | 'a' => some (Char.ofNat 7)
  | 'b' => some (Char.ofNat 8)
  | 't' => some '\t'
  | '\t' => some '\t'
  | 'n' => some '\n'
  | 'v' => some (Char.ofNat 11)
  | 'f' => some (Char.ofNat 12)
  | 'r' => some '\r'
  | 'e' => some (Char.ofNat 27)
  | ' ' => some ' '
  | '"' => some '"'
  | '/' => some '/'
  | '\\' => some '\\'
  | 'N' => some (Char.ofNat 0x85)
  | '_' => some (Char.ofNat 0xA0)
  | 'L' => some (Char.ofNat 0x2028)
  | 'P' => some (Char.ofNat 0x2029)
  | _ => none

/-- The number of hexadecimal digits behind an escape letter. -/
def escapeWidth? : Char → Option Nat
  | 'x' => some 2
  | 'u' => some 4
  | 'U' => some 8
  | _ => none

/-- The character that an escape behind a backslash stands for, and its length. -/
def readEscape? : Text → Option (Char × Nat)
  | [] => none
  | c :: s =>
    match escapeWidth? c with
    | none => (escapeLetter? c).map (·, 1)
    | some width =>
      if (s.take width).length < width then none
      else (hexWordValue? (s.take width)).bind fun n =>
        if n < 0xD800 ∨ (0xE000 ≤ n ∧ n < 0x110000) then some (Char.ofNat n, width + 1) else none

/-- Reads the characters of a quoted scalar up to the next space, the closing quote or an escaped
line break. The answer tells whether a line break was escaped. -/
def readQuotedRun? (quote : Char) (mark : Mark) : Text → Option (Text × Bool × Cursor)
  | [] => some ([], false, ⟨mark, []⟩)
  | c :: s =>
    if isBlank c || isBreak c then some ([], false, ⟨mark, c :: s⟩)
    else if c = quote then
      if quote = '\'' && s.head? = some '\'' then
        (readQuotedRun? quote (mark.behind [c, c]) (s.drop 1)).map fun (text, r) => (c :: text, r)
      else some ([], false, ⟨mark, c :: s⟩)
    else if quote = '"' && c = '\\' then
      if s ≠ [] && atBreak s then some ([], true, (Cursor.skipBreak ⟨mark.behind [c], s⟩).2)
      else
        (readEscape? s).bind fun (x, length) =>
          (readQuotedRun? quote (mark.behind (c :: s.take length)) (s.drop length)).map
            fun (text, r) => (x :: text, r)
    else (readQuotedRun? quote (mark.behind [c]) s).map fun (text, r) => (c :: text, r)
termination_by s => s.length

/-- Reads runs of a quoted scalar and the gaps between them, through the closing quote. The first
argument bounds the number of runs. -/
def readQuotedRuns? (quote : Char) : Nat → Text → Cursor → Option (Text × Cursor)
  | 0, _, _ => none
  | fuel + 1, text, cursor =>
    if cursor.atDocumentMarker || cursor.rest = [] then none
    else do
      let (run, escaped, cursor) ← readQuotedRun? quote cursor.mark cursor.rest
      let text := text ++ run
      if cursor.rest.head? = some quote then some (text, cursor.skip 1)
      else
        let gap := if escaped then Gap.empty.addBreak [] else Gap.empty
        let (gap, cursor) ← readGap? 0 gap cursor.mark cursor.rest
        readQuotedRuns? quote fuel (text ++ gap.folded) cursor

/-- Reads a quoted scalar behind its opening quote. -/
def readQuoted? (quote : Char) (cursor : Cursor) : Option (Text × Cursor) :=
  readQuotedRuns? quote (cursor.rest.length + 1) [] cursor

/-- What happens to the line breaks at the end of a block. -/
inductive Chomping
  /-- None is kept. -/
  | strip
  /-- One is kept. -/
  | clip
  /-- All are kept. -/
  | keep
deriving DecidableEq

/-- Reads the sign for the end of a block. -/
def readChomping : Text → Option Chomping × Text
  | '+' :: s => (some .keep, s)
  | '-' :: s => (some .strip, s)
  | s => (none, s)

/-- Reads the digit for the indentation of a block, which may not be zero. -/
def readIncrement? : Text → Option (Nat × Text)
  | c :: s =>
    if c = '0' then none
    else if c.isDigit then some (c.toNat - '0'.toNat, s)
    else some (0, c :: s)
  | [] => some (0, [])

/-- Reads the sign and the digit in either order; without a digit the second number is zero. -/
def readBlockHeader? (s : Text) : Option (Chomping × Nat × Text) := do
  match readChomping s with
  | (some chomping, s) =>
    let (increment, s) ← readIncrement? s
    some (chomping, increment, s)
  | (none, s) =>
    let (increment, s) ← readIncrement? s
    if increment = 0 then some (.clip, 0, s)
    else
      let (chomping, s) := readChomping s
      some (chomping.getD .clip, increment, s)

/-- Reads the indentation of a line of a block and empty lines in front of it. With indentation
zero, all spaces belong to it. The answer has the line breaks and the widest indentation. -/
def readIndentation? (indent widest : Nat) (breaks : List Text) (mark : Mark) :
    Text → Option (List Text × Nat × Cursor)
  | [] => some (breaks, max widest mark.column, ⟨mark, []⟩)
  | '\r' :: '\n' :: s =>
    readIndentation? indent (max widest mark.column) (breaks ++ [['\n']])
      (mark.newLine ['\r', '\n']) s
  | c :: s =>
    let open? := indent = 0 || mark.column < indent
    if c = ' ' && open? then readIndentation? indent widest breaks (mark.behind [c]) s
    else if c = '\t' && open? then none
    else if isBreak c then
      readIndentation? indent (max widest mark.column) (breaks ++ [breakText c])
        (mark.newLine [c]) s
    else some (breaks, max widest mark.column, ⟨mark, c :: s⟩)

/-- The lines of a block so far. -/
structure BlockText where
  text : Text
  /-- The line break behind the last line. -/
  lastBreak : Text
  /-- The line breaks of the empty lines that follow. -/
  emptyLines : List Text
  /-- Whether the last line starts with a blank. -/
  startsBlank : Bool

/-- Reads lines of a block that is indented by `indent`. A folded block joins two lines that do not
start with a blank. The first argument bounds the number of lines. -/
def readBlockLines? (folds : Bool) (indent : Nat) :
    Nat → BlockText → Cursor → Option (BlockText × Cursor)
  | 0, _, _ => none
  | fuel + 1, block, cursor =>
    match cursor.rest with
    | [] => some (block, cursor)
    | c :: _ =>
      if cursor.column ≠ indent then some (block, cursor)
      else do
        let joined :=
          if folds && block.lastBreak.head? = some '\n' && !block.startsBlank && !isBlank c then
            if block.emptyLines.flatten = [] then [' '] else []
          else block.lastBreak
        let line := cursor.rest.takeWhile fun c => !isBreak c
        let (lastBreak, next) := (cursor.skip line.length).skipBreak
        let (emptyLines, _, next) ← readIndentation? indent 0 [] next.mark next.rest
        readBlockLines? folds indent fuel
          ⟨block.text ++ joined ++ block.emptyLines.flatten ++ line, lastBreak, emptyLines,
            isBlank c⟩ next

/-- Reads a block behind its indicator, inside of a collection that is indented by `outer`. -/
def readBlock? (folds : Bool) (outer : Int) (cursor : Cursor) : Option (Text × Cursor) := do
  let (chomping, increment, afterHeader) ← readBlockHeader? cursor.rest
  let cursor := cursor.skip (cursor.rest.length - afterHeader.length)
  let cursor := cursor.skipWhile isBlank
  let cursor :=
    if cursor.rest.head? = some '#' then cursor.skipWhile fun c => !isBreak c else cursor
  if !atBreak cursor.rest then none
  else
    let cursor := cursor.skipBreak.2
    let given := if increment = 0 then 0 else (max outer 0).toNat + increment
    let (emptyLines, widest, cursor) ← readIndentation? given 0 [] cursor.mark cursor.rest
    let indent := if given = 0 then max (max widest (outer + 1).toNat) 1 else given
    let (block, cursor) ←
      readBlockLines? folds indent (cursor.rest.length + 1) ⟨[], [], emptyLines, false⟩ cursor
    let ending := match chomping with
      | .strip => []
      | .clip => block.lastBreak
      | .keep => block.lastBreak ++ block.emptyLines.flatten
    some (block.text ++ ending, cursor)

end UriTemplate.Yaml
