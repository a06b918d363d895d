import UriTemplate.Yaml.Token

/-!
# Trees of YAML nodes

The tokens of a YAML text are read as a tree of scalars, sequences, mappings and references to other
nodes. `Node.parse?` answers with nothing for tokens that are no single document. Each reader takes
a bound on the number of readers it may call, which is computed from the number of tokens.

Anchors are told apart by numbers. An anchor gets as its number how many names of anchors were known
before it, and a reference takes the number that its name has there. So when a name is used again,
references further on mean the later anchor, and its number may belong to a third anchor as well.
-/

namespace UriTemplate.Yaml

/-- What stands in front of the content of a node. -/
structure Properties where
  tag : Option Tag
  /-- The number of the anchor. -/
  anchor : Option Nat

/-- No tag and no anchor. -/
def Properties.empty : Properties := ⟨none, none⟩

/-- Whether there are properties. -/
def Properties.present (p : Properties) : Bool := p.tag.isSome || p.anchor.isSome

/-- A node of a document. -/
inductive Node
  | reference (anchor : Nat)
  | scalar (properties : Properties) (text : Text) (isPlain : Bool)
  | sequence (properties : Properties) (items : List Node)
  | mapping (properties : Properties) (entries : List (Node × Node))

/-- The node that is meant where nothing is written behind properties. -/
def Node.emptyScalar (p : Properties) : Node := .scalar p [] true

/-- The node that is meant where nothing is written. -/
def Node.missing : Node := .emptyScalar Properties.empty

/-- What is left of the tokens, with the tag handles and the anchors of the document. -/
structure NodeReader where
  tokens : List Token
  /-- The beginnings of tags that handles stand for. -/
  handles : List (Text × Tag)
  /-- The known names of anchors with their numbers, each once. -/
  anchors : List (Text × Nat)

namespace NodeReader

/-- The first token that is left. -/
def peek (r : NodeReader) : Token := r.tokens.head?.getD .streamEnd

/-- The reader behind the first token. -/
def next (r : NodeReader) : NodeReader := { r with tokens := r.tokens.tail }

/-- The tag that a handle and a suffix stand for. -/
def resolveTag? (r : NodeReader) (handle : Text) (suffix : Tag) : Option Tag :=
  if handle = [] then some suffix
  else (r.handles.find? fun h => h.1 = handle).map fun h => h.2 ++ suffix

/-- Reads a tag, if there is one. -/
def readTag? (r : NodeReader) : Option (Option Tag × NodeReader) :=
  match r.peek with
  | .tag handle suffix => (r.resolveTag? handle suffix).map fun t => (some t, r.next)
  | _ => some (none, r)

/-- Reads an anchor, if there is one, and gives it a number. -/
def readAnchor (r : NodeReader) : Option Nat × NodeReader :=
  match r.peek with
  | .anchor name =>
    let number := r.anchors.length
    let others := r.anchors.filter fun a => a.1 ≠ name
    (some number, { r.next with anchors := (name, number) :: others })
  | _ => (none, r)

/-- Reads a tag and an anchor in either order. -/
def readProperties? (r : NodeReader) : Option (Properties × NodeReader) :=
  match r.readAnchor with
  | (some anchor, r) => do
    let (tag, r) ← r.readTag?
    some (⟨tag, some anchor⟩, r)
  | (none, r) => do
    let (tag, r) ← r.readTag?
    if tag.isSome then
      let (anchor, r) := r.readAnchor
      some (⟨tag, anchor⟩, r)
    else some (Properties.empty, r)

/-- The number of the anchor of a name. -/
def anchorNumber? (r : NodeReader) (name : Text) : Option Nat :=
  (r.anchors.find? fun a => a.1 = name).map (·.2)

/-- Whether an entry of a block collection ends at the token: with the next entry or the end. -/
def endsBlockEntry : Token → Bool
  | .key | .value | .blockEnd => true
  | _ => false

mutual

/-- Reads a node, which may be a block collection only if `inBlock`, and a sequence that is not
indented only if `unindented`. -/
def readNode? (inBlock unindented : Bool) : Nat → NodeReader → Option (Node × NodeReader)
  | 0, _ => none
  | fuel + 1, r =>
    match r.peek with
    | .reference name => (r.anchorNumber? name).map fun number => (.reference number, r.next)
    | _ => do
      let (p, r) ← r.readProperties?
      readContent? inBlock unindented p fuel r

/-- Reads a node behind its properties. -/
def readContent? (inBlock unindented : Bool) (p : Properties) :
    Nat → NodeReader → Option (Node × NodeReader)
  | 0, _ => none
  | fuel + 1, r =>
    match r.peek with
    | .blockEntry =>
      if unindented then
        (readUnindented? fuel r).map fun (items, r) => (.sequence p items, r)
      else if p.present then some (.emptyScalar p, r)
      else none
    | .scalar text isPlain => some (.scalar p text isPlain, r.next)
    | .flowSequenceStart =>
      (readFlowItems? true fuel r.next).map fun (items, r) => (.sequence p items, r)
    | .flowMappingStart =>
      (readFlowEntries? true fuel r.next).map fun (entries, r) => (.mapping p entries, r)
    | .blockSequenceStart =>
      if inBlock then (readItems? fuel r.next).map fun (items, r) => (.sequence p items, r)
      else if p.present then some (.emptyScalar p, r)
      else none
    | .blockMappingStart =>
      if inBlock then (readEntries? fuel r.next).map fun (entries, r) => (.mapping p entries, r)
      else if p.present then some (.emptyScalar p, r)
      else none
    | _ => if p.present then some (.emptyScalar p, r) else none

/-- Reads the items of a block sequence through its end. -/
def readItems? : Nat → NodeReader → Option (List Node × NodeReader)
  | 0, _ => none
  | fuel + 1, r =>
    match r.peek with
    | .blockEnd => some ([], r.next)
    | .blockEntry =>
      match r.next.peek with
      | .blockEntry | .blockEnd => do
        let (items, r) ← readItems? fuel r.next
        some (.missing :: items, r)
      | _ => do
        let (item, r) ← readNode? true false fuel r.next
        let (items, r) ← readItems? fuel r
        some (item :: items, r)
    | _ => none

/-- Reads the items of a sequence that is not indented. -/
def readUnindented? : Nat → NodeReader → Option (List Node × NodeReader)
  | 0, _ => none
  | fuel + 1, r =>
    match r.peek with
    | .blockEntry =>
      if r.next.peek = .blockEntry || endsBlockEntry r.next.peek then do
        let (items, r) ← readUnindented? fuel r.next
        some (.missing :: items, r)
      else do
        let (item, r) ← readNode? true false fuel r.next
        let (items, r) ← readUnindented? fuel r
        some (item :: items, r)
    | _ => some ([], r)

/-- Reads the entries of a block mapping through its end. -/
def readEntries? : Nat → NodeReader → Option (List (Node × Node) × NodeReader)
  | 0, _ => none
  | fuel + 1, r =>
    match r.peek with
    | .blockEnd => some ([], r.next)
    | .key => do
      let (key, r) ←
        if endsBlockEntry r.next.peek then some (.missing, r.next)
        else readNode? true true fuel r.next
      let (value, r) ←
        if r.peek = .value then
          if endsBlockEntry r.next.peek then some (.missing, r.next)
          else readNode? true true fuel r.next
        else some (.missing, r)
      let (entries, r) ← readEntries? fuel r
      some ((key, value) :: entries, r)
    | _ => none

/-- Reads the items of a flow sequence through its end; all but the first follow a comma. -/
def readFlowItems? (isFirst : Bool) : Nat → NodeReader → Option (List Node × NodeReader)
  | 0, _ => none
  | fuel + 1, r =>
    if r.peek = .flowSequenceEnd then some ([], r.next)
    else if !isFirst && r.peek ≠ .flowEntry then none
    else
      let r := if isFirst then r else r.next
      match r.peek with
      | .flowSequenceEnd => some ([], r.next)
      | .key => do
        let (item, r) ← readSinglePair? fuel r.next
        let (items, r) ← readFlowItems? false fuel r
        some (item :: items, r)
      | _ => do
        let (item, r) ← readNode? false false fuel r
        let (items, r) ← readFlowItems? false fuel r
        some (item :: items, r)

/-- Reads a pair that stands as an item of a flow sequence, behind its key indicator. A pair without
a key loses the token that stands in place of it. -/
def readSinglePair? : Nat → NodeReader → Option (Node × NodeReader)
  | 0, _ => none
  | fuel + 1, r => do
    let (key, r) ←
      match r.peek with
      | .value | .flowEntry | .flowSequenceEnd => some (.missing, r.next)
      | _ => readNode? false false fuel r
    let (value, r) ←
      if r.peek = .value then
        match r.next.peek with
        | .flowEntry | .flowSequenceEnd => some (.missing, r.next)
        | _ => readNode? false false fuel r.next
      else some (.missing, r)
    some (.mapping Properties.empty [(key, value)], r)

/-- Reads the entries of a flow mapping through its end; all but the first follow a comma. -/
def readFlowEntries? (isFirst : Bool) : Nat → NodeReader → Option (List (Node × Node) × NodeReader)
  | 0, _ => none
  | fuel + 1, r =>
    if r.peek = .flowMappingEnd then some ([], r.next)
    else if !isFirst && r.peek ≠ .flowEntry then none
    else
      let r := if isFirst then r else r.next
      match r.peek with
      | .flowMappingEnd => some ([], r.next)
      | .key => do
        let (key, r) ←
          match r.next.peek with
          | .value | .flowEntry | .flowMappingEnd => some (.missing, r.next)
          | _ => readNode? false false fuel r.next
        let (value, r) ←
          if r.peek = .value then
            match r.next.peek with
            | .flowEntry | .flowMappingEnd => some (.missing, r.next)
            | _ => readNode? false false fuel r.next
          else some (.missing, r)
        let (entries, r) ← readFlowEntries? false fuel r
        some ((key, value) :: entries, r)
      | _ => do
        let (key, r) ← readNode? false false fuel r
        let (entries, r) ← readFlowEntries? false fuel r
        some ((key, .missing) :: entries, r)

end

/-- Reads the directives of a document; a version must be 1.1 or 1.2, and nothing may be given
twice. -/
def readDirectives? (versionGiven : Bool) (handles : List (Text × Tag)) :
    List Token → Option (List (Text × Tag) × List Token)
  | .versionDirective major minor :: ts =>
    if versionGiven || major ≠ 1 || (minor ≠ 1 && minor ≠ 2) then none
    else readDirectives? true handles ts
  | .tagDirective handle tagStart :: ts =>
    if handles.any fun h => h.1 = handle then none
    else readDirectives? versionGiven (handles ++ [(handle, tagStart)]) ts
  | ts => some (handles, ts)

/-- Whether nothing of a document is left at the token. -/
def endsDocument : Token → Bool
  | .versionDirective .. | .tagDirective .. | .documentStart | .documentEnd | .streamEnd => true
  | _ => false

/-- Whether the tokens start with the directives or the marker of a document. -/
def startsExplicitly : Token → Bool
  | .versionDirective .. | .tagDirective .. | .documentStart => true
  | _ => false

end NodeReader

open NodeReader in
/-- The node of the single document that tokens make up, which is missing without any. -/
def Node.ofTokens? (tokens : List Token) : Option Node := do
  let fuel := 4 * tokens.length + 4
  match tokens with
  | [.streamEnd] => some (.missing)
  | _ =>
    let first : NodeReader := ⟨tokens, [], []⟩
    let (node, r) ←
      if startsExplicitly first.peek then do
        let (handles, ts) ← readDirectives? false [] tokens
        let r : NodeReader := ⟨ts, handles ++ Tag.defaultHandles, []⟩
        if r.peek ≠ .documentStart then none
        else if endsDocument r.next.peek then some (.missing, r.next)
        else readNode? true false fuel r.next
      else readNode? true false fuel ⟨tokens, Tag.defaultHandles, []⟩
    if r.tokens.dropWhile (· = .documentEnd) = [.streamEnd] then some node else none

/-- The node of the single document of a YAML text. -/
def Node.parse? (s : Text) : Option Node := (tokens? s).bind Node.ofTokens?

end UriTemplate.Yaml
