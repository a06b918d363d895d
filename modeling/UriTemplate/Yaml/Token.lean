import UriTemplate.Yaml.Scalar
import UriTemplate.Yaml.Tag

/-!
# Tokens of YAML text

A YAML text is cut into tokens. Besides the indicators and scalars that stand in the text there are
tokens for structure that only the layout shows: the start and the end of a block collection, and
the key of a simple `key: value`, which is known to be a key only when its colon comes. Therefore
the scanner remembers where a simple key may have started, and inserts the tokens there later.
-/

namespace UriTemplate.Yaml

/-- A token of a YAML text. -/
inductive Token
  | versionDirective (major minor : Nat)
  | tagDirective (handle : Text) (tagStart : Tag)
  | documentStart
  | documentEnd
  | blockSequenceStart
  | blockMappingStart
  | blockEnd
  | flowSequenceStart
  | flowSequenceEnd
  | flowMappingStart
  | flowMappingEnd
  | flowEntry
  | blockEntry
  | key
  | value
  | anchor (name : Text)
  | reference (name : Text)
  | tag (handle : Text) (suffix : Tag)
  | scalar (text : Text) (isPlain : Bool)
  | streamEnd
deriving DecidableEq

/-- A place where a simple key may have started. -/
structure PossibleKey where
  /-- Whether nothing but a key may stand there. -/
  required : Bool
  /-- The number of tokens in front of it. -/
  tokenIndex : Nat
  mark : Mark

/-- The scanner between two tokens. -/
structure Scanner where
  cursor : Cursor
  tokens : Array Token
  /-- The indentation of the innermost block collection, -1 outside of any. -/
  indent : Int
  /-- The indentations of the collections around it. -/
  outerIndents : List Int
  /-- The possible key of the innermost flow collection. -/
  possibleKey : Option PossibleKey
  /-- The possible keys around it, one for each flow collection that is open. -/
  outerKeys : List (Option PossibleKey)
  /-- Whether a simple key may start here. -/
  keyAllowed : Bool

namespace Scanner

/-- The scanner at the start of a text. -/
def start (s : Text) : Scanner := ⟨⟨Mark.start, s⟩, #[], -1, [], none, [], true⟩

/-- Whether the place lies within a flow collection. -/
def inFlow (s : Scanner) : Bool := !s.outerKeys.isEmpty

/-- The scanner with one more token. -/
def emit (s : Scanner) (t : Token) : Scanner := { s with tokens := s.tokens.push t }

/-- The scanner with one more token, behind as many characters of the text. -/
def emitSkip (s : Scanner) (t : Token) (count : Nat) : Scanner :=
  { s.emit t with cursor := s.cursor.skip count }

/-- No simple key starts at the remembered place, which is refused if one had to. -/
def removeKey? (s : Scanner) : Option Scanner :=
  match s.possibleKey with
  | some k => if k.required then none else some { s with possibleKey := none }
  | none => some s

/-- Remembers that a simple key may start here. It has to if the block mapping around it goes on
at this column. -/
def saveKey? (s : Scanner) : Option Scanner :=
  if s.keyAllowed then
    s.removeKey?.map fun s' =>
      let required := !s.inFlow && s.indent = Int.ofNat s.cursor.column
      { s' with possibleKey := some ⟨required, s.tokens.size, s.cursor.mark⟩ }
  else some s

/-- The remembered key, if it lies on this line and within 1024 bytes. -/
def currentKey? (s : Scanner) : Option (Option PossibleKey) :=
  match s.possibleKey with
  | none => some none
  | some k =>
    if k.mark.line < s.cursor.mark.line ∨ k.mark.offset + 1024 < s.cursor.mark.offset then
      if k.required then none else some none
    else some (some k)

/-- Opens a block collection at a column right of the innermost one, with its token at an index. -/
def openBlock (s : Scanner) (column : Nat) (t : Token) (tokenIndex : Nat) : Scanner :=
  if s.inFlow || Int.ofNat column ≤ s.indent then s
  else
    { s with
      outerIndents := s.indent :: s.outerIndents
      indent := Int.ofNat column
      tokens := s.tokens.insertIdxIfInBounds tokenIndex t }

/-- Closes as many block collections as reach further right than a column. -/
def closeBlocks (column : Int) : List Int → Scanner → Scanner
  | [], s => s
  | outer :: outers, s =>
    if column < s.indent then
      closeBlocks column outers { s.emit .blockEnd with indent := outer, outerIndents := outers }
    else s

/-- The scanner behind all block collections that reach further right than a column; within a flow
collection there are none. -/
def unindent (s : Scanner) (column : Int) : Scanner :=
  if s.inFlow then s else closeBlocks column s.outerIndents s

/-- Reads blanks, comments and line breaks in front of a token. A tab is a blank only where no
simple key may start, and a line break allows one to start unless within a flow collection. -/
def skipToToken (inFlow : Bool) (keyAllowed inComment : Bool) (mark : Mark) :
    Text → Bool × Cursor
  | [] => (keyAllowed, ⟨mark, []⟩)
  | '\r' :: '\n' :: s =>
    skipToToken inFlow (keyAllowed || !inFlow) false (mark.newLine ['\r', '\n']) s
  | c :: s =>
    if isBreak c then skipToToken inFlow (keyAllowed || !inFlow) false (mark.newLine [c]) s
    else if inComment || (mark.column = 0 && c.toNat = 0xFEFF) || c = ' ' ||
        ((inFlow || !keyAllowed) && c = '\t') then
      skipToToken inFlow keyAllowed inComment (mark.behind [c]) s
    else if c = '#' then skipToToken inFlow keyAllowed true (mark.behind [c]) s
    else (keyAllowed, ⟨mark, c :: s⟩)

/-- What stands before every token of its own line: no possible key and no block left open. -/
def atLineToken? (s : Scanner) : Option Scanner :=
  (s.unindent (-1)).removeKey?.map fun s => { s with keyAllowed := false }

/-- Reads a document marker. -/
def documentMarker? (s : Scanner) (t : Token) : Option Scanner :=
  s.atLineToken?.map (·.emitSkip t 3)

/-- Reads the end of the text. -/
def streamEnd? (s : Scanner) : Option Scanner := s.atLineToken?.map (·.emit .streamEnd)

/-- Reads the start of a flow collection. -/
def openFlow? (s : Scanner) (t : Token) : Option Scanner :=
  s.saveKey?.map fun s =>
    { s.emitSkip t 1 with
      outerKeys := s.possibleKey :: s.outerKeys
      possibleKey := none
      keyAllowed := true }

/-- Reads the end of a flow collection. -/
def closeFlow? (s : Scanner) (t : Token) : Option Scanner :=
  s.removeKey?.map fun s =>
    let s := match s.outerKeys with
      | k :: ks => { s with possibleKey := k, outerKeys := ks }
      | [] => s
    { s.emitSkip t 1 with keyAllowed := false }

/-- Reads a comma between the entries of a flow collection. -/
def flowEntry? (s : Scanner) : Option Scanner :=
  s.removeKey?.map fun s => { s.emitSkip .flowEntry 1 with keyAllowed := true }

/-- Opens a block collection at this place unless there is one, which must be allowed here. -/
def openBlockHere? (s : Scanner) (t : Token) : Option Scanner :=
  if s.inFlow then some s
  else if s.keyAllowed then some (s.openBlock s.cursor.column t s.tokens.size)
  else none

/-- Reads the hyphen of an entry of a block sequence. -/
def blockEntry? (s : Scanner) : Option Scanner := do
  let s ← s.openBlockHere? .blockSequenceStart
  let s ← s.removeKey?
  some { s.emitSkip .blockEntry 1 with keyAllowed := true }

/-- Reads the question mark of a key. -/
def explicitKey? (s : Scanner) : Option Scanner := do
  let s ← s.openBlockHere? .blockMappingStart
  let s ← s.removeKey?
  some { s.emitSkip .key 1 with keyAllowed := !s.inFlow }

/-- Reads the colon of a value, behind a simple key or not. -/
def value? (s : Scanner) : Option Scanner := do
  match ← s.currentKey? with
  | some k =>
    let s := { s with tokens := s.tokens.insertIdxIfInBounds k.tokenIndex .key }
    let s := s.openBlock k.mark.column .blockMappingStart k.tokenIndex
    some { s.emitSkip .value 1 with possibleKey := none, keyAllowed := false }
  | none =>
    let s ← s.openBlockHere? .blockMappingStart
    some { s.emitSkip .value 1 with possibleKey := none, keyAllowed := !s.inFlow }

/-- Reads the name of an anchor or an alias behind its indicator. -/
def anchor? (s : Scanner) (t : Text → Token) : Option Scanner := do
  let s ← s.saveKey?
  let name := (s.cursor.rest.drop 1).takeWhile isWordChar
  let rest := s.cursor.rest.drop (name.length + 1)
  let endsHere :=
    atSpace rest || rest.head?.any fun c => c ∈ "?:,]\x7d%@".toList || c.toNat = 0x60
  if name ≠ [] && endsHere then
    some { s.emitSkip (t name) (name.length + 1) with keyAllowed := false }
  else none

/-- Reads a tag. -/
def tag? (s : Scanner) : Option Scanner := do
  let s ← s.saveKey?
  let (handle, suffix, rest) ← Tag.read? (s.cursor.rest.drop 1)
  if atSpace rest || (s.inFlow && rest.head? = some ',') then
    let length := s.cursor.rest.length - rest.length
    some { s.emitSkip (.tag handle suffix) length with keyAllowed := false }
  else none

/-- Reads a block scalar. -/
def blockScalar? (s : Scanner) (folds : Bool) : Option Scanner := do
  let s ← s.removeKey?
  let (text, cursor) ← readBlock? folds s.indent (s.cursor.skip 1)
  some { s.emit (.scalar text false) with cursor := cursor, keyAllowed := true }

/-- Reads a quoted scalar. -/
def quotedScalar? (s : Scanner) (quote : Char) : Option Scanner := do
  let s ← s.saveKey?
  let (text, cursor) ← readQuoted? quote (s.cursor.skip 1)
  some { s.emit (.scalar text false) with cursor := cursor, keyAllowed := false }

/-- Reads a plain scalar; behind a line break a simple key may start. -/
def plainScalar? (s : Scanner) : Option Scanner := do
  let s ← s.saveKey?
  let (text, broken, cursor) ← readPlain? s.inFlow (s.indent + 1).toNat s.cursor
  some { s.emit (.scalar text true) with cursor := cursor, keyAllowed := broken }

/-- Reads up to nine digits. -/
def readVersionNumber? (s : Text) : Option (Nat × Text) :=
  let digits := s.takeWhile Char.isDigit
  if digits = [] || 9 < digits.length then none
  else some (digitsValue digits, s.drop digits.length)

/-- Reads a directive behind its percent sign. -/
def readDirective? (s : Text) : Option (Token × Text) := do
  let name := s.takeWhile isWordChar
  let s := s.drop name.length
  if name = [] || !atSpace s then none
  else
    let s := s.dropWhile isBlank
    if name = "YAML".toList then
      let (major, s) ← readVersionNumber? s
      match s with
      | '.' :: s =>
        let (minor, s) ← readVersionNumber? s
        some (.versionDirective major minor, s)
      | _ => none
    else if name = "TAG".toList then
      let (handle, s) ← Tag.readHandle? s
      if (s.head?.any isBlank) then
        let (tagStart, s) ← Tag.readSome? true (s.dropWhile isBlank)
        if atSpace s then some (.tagDirective handle tagStart, s) else none
      else none
    else none

/-- Reads a directive and the rest of its line. -/
def directive? (s : Scanner) : Option Scanner := do
  let s ← s.atLineToken?
  let (t, rest) ← readDirective? (s.cursor.rest.drop 1)
  let cursor := (s.cursor.skip (s.cursor.rest.length - rest.length)).skipWhile isBlank
  let cursor :=
    if cursor.rest.head? = some '#' then cursor.skipWhile fun c => !isBreak c else cursor
  if atBreak cursor.rest then some { s.emit t with cursor := cursor.skipBreak.2 } else none

/-- Whether a plain scalar may start with the character `c` in front of `rest`. -/
def startsPlain (inFlow : Bool) (c : Char) (rest : Text) : Bool :=
  if c = '-' then !(rest.head?.any isBlank)
  else if c = '?' || c = ':' then !inFlow && !atSpace rest
  else !(isBlank c || isBreak c || c ∈ ",[]\x7b\x7d#&*!|>'\"%@".toList || c.toNat = 0x60)

/-- Reads the token that starts here. -/
def readToken? (s : Scanner) : Option Scanner :=
  match s.cursor.rest with
  | [] => s.streamEnd?
  | c :: rest =>
    if s.cursor.column = 0 && c = '%' then s.directive?
    else if s.cursor.column = 0 && startsMarker '-' (c :: rest) then
      s.documentMarker? .documentStart
    else if s.cursor.column = 0 && startsMarker '.' (c :: rest) then s.documentMarker? .documentEnd
    else if c = '[' then s.openFlow? .flowSequenceStart
    else if c = '{' then s.openFlow? .flowMappingStart
    else if c = ']' then s.closeFlow? .flowSequenceEnd
    else if c = '}' then s.closeFlow? .flowMappingEnd
    else if c = ',' then s.flowEntry?
    else if c = '-' && atSpace rest then s.blockEntry?
    else if c = '?' && (s.inFlow || atSpace rest) then s.explicitKey?
    else if c = ':' && (s.inFlow || atSpace rest) then s.value?
    else if c = '*' then s.anchor? .reference
    else if c = '&' then s.anchor? .anchor
    else if c = '!' then s.tag?
    else if c = '|' && !s.inFlow then s.blockScalar? false
    else if c = '>' && !s.inFlow then s.blockScalar? true
    else if c = '\'' || c = '"' then s.quotedScalar? c
    else if startsPlain s.inFlow c rest then s.plainScalar?
    else none

/-- Goes to the next token and reads it. -/
def step? (s : Scanner) : Option Scanner :=
  let (keyAllowed, cursor) :=
    skipToToken s.inFlow s.keyAllowed false s.cursor.mark s.cursor.rest
  let s := { s with keyAllowed := keyAllowed, cursor := cursor }
  (s.unindent (Int.ofNat cursor.column)).readToken?

/-- Reads tokens through the end of the text. The first argument bounds their number. -/
def run? : Nat → Scanner → Option Scanner
  | 0, _ => none
  | fuel + 1, s =>
    s.step?.bind fun s => if s.tokens.back? = some .streamEnd then some s else run? fuel s

end Scanner

/-- The tokens of a text. Each but the last is at least one character long. -/
def tokens? (s : Text) : Option (List Token) :=
  if s.all isAllowed then
    (Scanner.run? (s.length + 1) (Scanner.start s)).map (·.tokens.toList)
  else none

end UriTemplate.Yaml
